import MediaSession.Proofs.Dispatch
import MediaSession.Proofs.PathRestart
import MediaSession.Proofs.StreamEndings

namespace MediaSession

namespace Turn

/-- The wait of the candidates is over: a stable state is reported, or the session torn down. -/
def EndsWait (turn : Turn) : Prop :=
  turn.stimulus.reported? = some .stable ∨ turn.reaction.Dismantles

variable {turn : Turn}

/-- Candidates wait in an unstable state, and only a report of a stable one changes that. -/
theorem unstable_after (h : turn.before.Orderly) (hw : turn.before.candidates.waiting ≠ [])
    (hr : turn.stimulus.reported? ≠ some .stable) : turn.after.candidates.stable = false := by
  have hb : turn.before.candidates.stable = false := by
    cases hs : turn.before.candidates.stable with
    | false => rfl
    | true => exact absurd (h.waiting hs) hw
  have hc := carries h
  rw [hc.stable, hc.signaling]
  cases ht : turn.stimulus.reported? with
  | none => exact h.stable.symm.trans hb
  | some state =>
    have hn : state ≠ .stable := fun he => hr (by rw [ht, he])
    simpa [SignalingState.isStable] using hn

theorem enqueued_of_unstable (h : turn.before.Orderly)
    (hs : turn.after.candidates.stable = false) : turn.enqueued = [] := by
  cases (carries h).routes with
  | keeps he => exact he
  | sends _ _ ht => exact absurd (hs.symm.trans ht) Bool.false_ne_true
  | discards he => exact he

/-- As long as nothing ends the wait, the buffer keeps what it holds and takes in what is found. -/
theorem waiting_of_not_endsWait (h : turn.before.Orderly)
    (hw : turn.before.candidates.waiting ≠ []) (hn : ¬ turn.EndsWait) :
    turn.enqueued = [] ∧ turn.after.candidates.waiting = turn.pool := by
  obtain ⟨hr, hd⟩ := not_or.mp hn
  cases (carries h).routes with
  | keeps he hk => exact ⟨he, hk⟩
  | sends _ _ ht => exact absurd ((unstable_after h hw hr).symm.trans ht) Bool.false_ne_true
  | discards _ _ hm =>
    rcases hm with ⟨hs, _⟩ | hm
    · rw [hs] at hr
      exact absurd rfl hr
    · exact absurd hm hd

theorem waiting_of_endsWait (h : turn.before.Orderly) (he : turn.EndsWait) :
    turn.after.candidates.waiting = [] := by
  rcases he with hr | hd
  · have hc := carries h
    refine (hc.orderly h).waiting ?_
    rw [hc.stable, hc.signaling, hr]
    rfl
  · exact turn.before.meet_empties turn.stimulus hd

theorem subset_pool (h : turn.before.Orderly) :
    turn.enqueued ⊆ turn.pool ∧ turn.after.candidates.waiting ⊆ turn.pool := by
  cases (carries h).routes with
  | keeps he hw => simp [he, hw]
  | sends he hw => simp [he, hw]
  | discards he hw => simp [he, hw]

/-- A stable state is reported while no new path is due: what has waited is sent. -/
def Flushes (past : List Turn) (turn : Turn) : Prop :=
  turn.stimulus = .signalingChanged .stable ∧ ¬ RestartDue past

theorem Flushes.endsWait {past : List Turn} (h : turn.Flushes past) : turn.EndsWait := by
  refine Or.inl ?_
  rw [h.1]
  rfl

theorem Flushes.enqueued {past : List Turn} (hf : turn.Flushes past)
    (h : Heeds past turn.before) : turn.enqueued = turn.before.candidates.waiting := by
  obtain ⟨c, stimulus⟩ := turn
  obtain ⟨rfl, hn⟩ := hf
  have hr : c.restartNoted = false := by
    cases hc : c.restartNoted with
    | false => rfl
    | true => exact absurd (h.noted.mp hc) hn
  rw [Turn.enqueued, reaction, Channel.meet, Channel.signalingChanged_stable rfl hr]
  exact filterMap_candidate_send h.flows.orderly.candidates

theorem enqueued_of_not_flushes {past : List Turn} (h : Heeds past turn.before)
    (hw : turn.before.candidates.waiting ≠ []) (hn : ¬ turn.Flushes past) :
    turn.enqueued = [] := by
  by_cases hr : turn.stimulus.reported? = some .stable
  · obtain ⟨c, stimulus⟩ := turn
    obtain rfl := Stimulus.eq_of_reported? hr
    have hd : RestartDue past := by
      by_contra hd
      exact hn ⟨rfl, hd⟩
    exact (Channel.signalingChanged_clears rfl (h.noted.mpr hd)).1
  · exact enqueued_of_unstable h.flows.orderly (unstable_after h.flows.orderly hw hr)

end Turn

/-- The first of these steps that ends the wait sends what has waited. -/
def Flushed (past rest : List Turn) : Prop :=
  ∃ quiet next later, rest = quiet ++ next :: later ∧ (∀ turn ∈ quiet, ¬ turn.EndsWait) ∧
    next.Flushes (past ++ quiet)

theorem flushed_cons_of_endsWait {past rest : List Turn} {turn : Turn} (h : turn.EndsWait) :
    Flushed past (turn :: rest) ↔ turn.Flushes past := by
  constructor
  · rintro ⟨quiet, next, later, hl, hq, hf⟩
    cases quiet with
    | nil =>
      obtain ⟨rfl, _⟩ := List.cons.inj hl
      rwa [List.append_nil] at hf
    | cons first quiet =>
      obtain ⟨rfl, _⟩ := List.cons.inj hl
      exact absurd h (hq turn List.mem_cons_self)
  · intro hf
    exact ⟨[], turn, rest, rfl, by simp, by rwa [List.append_nil]⟩

theorem flushed_cons {past rest : List Turn} {turn : Turn} (h : ¬ turn.EndsWait) :
    Flushed past (turn :: rest) ↔ Flushed (past ++ [turn]) rest := by
  constructor
  · rintro ⟨quiet, next, later, hl, hq, hf⟩
    cases quiet with
    | nil =>
      obtain ⟨rfl, _⟩ := List.cons.inj hl
      exact absurd hf.endsWait h
    | cons first quiet =>
      obtain ⟨rfl, hr⟩ := List.cons.inj hl
      exact ⟨quiet, next, later, hr, (List.forall_mem_cons.mp hq).2, by simpa using hf⟩
  · rintro ⟨quiet, next, later, rfl, hq, hf⟩
    have hq' : ∀ t ∈ turn :: quiet, ¬ t.EndsWait := List.forall_mem_cons.mpr ⟨h, hq⟩
    exact ⟨turn :: quiet, next, later, rfl, hq', by simpa using hf⟩

theorem mem_sent_iff_mem_enqueued {history : List Turn} {envelope : SignalingEnvelope}
    (h : (Effect.send envelope).candidate? = some envelope) :
    envelope ∈ sent history ↔ envelope ∈ enqueued history := by
  simp only [sent, enqueued, List.mem_flatMap]
  refine exists_congr fun turn => and_congr_right fun _ => ?_
  rw [Reaction.mem_sent]
  refine ⟨fun hm => List.mem_filterMap.mpr ⟨_, hm, h⟩, fun hm => ?_⟩
  obtain ⟨effect, he, hc⟩ := List.mem_filterMap.mp hm
  -- Only the sending of a candidate counts as one.
  unfold Effect.candidate? at hc
  split at hc
  · exact Option.some.inj hc ▸ he
  · cases hc

namespace Rehearsal

variable (config : ChannelConfig) (usual : Endpoint → Answer) (moves : List Move)
variable {past rest : List Turn} {envelope : SignalingEnvelope}

/-- What neither waits nor is found again is not sent any more. -/
theorem play_not_enqueued (he : (play config usual moves).history = past ++ rest)
    (hw : envelope ∉ (Channel.now config past).candidates.waiting)
    (hd : envelope ∉ discovered rest) : envelope ∉ enqueued rest := by
  induction rest generalizing past with
  | nil => exact List.not_mem_nil
  | cons turn rest ih =>
    have hh := play_heeds_before config usual moves he
    have hb : turn.before = Channel.now config past :=
      (play_chronicle config usual moves).course _ _ _ he
    obtain ⟨hsent, hkept⟩ := Turn.subset_pool hh.flows.orderly
    simp only [discovered, List.flatMap_cons, List.mem_append, not_or] at hd
    have hp : envelope ∉ turn.pool := by
      rw [Turn.pool, hb, List.mem_append, not_or]
      exact ⟨hw, hd.1⟩
    have hl : envelope ∉ enqueued rest := by
      have hs : (play config usual moves).history = (past ++ [turn]) ++ rest := by simp [he]
      refine ih hs ?_ hd.2
      rw [Channel.now_snoc]
      exact fun hm => hp (hkept hm)
    simp only [enqueued, List.flatMap_cons, List.mem_append, not_or]
    exact ⟨fun hm => hp (hsent hm), hl⟩

/-- What waits is sent if and only if its wait ends with a stable state and without a new path. -/
theorem play_enqueued_iff (he : (play config usual moves).history = past ++ rest)
    (hw : envelope ∈ (Channel.now config past).candidates.waiting)
    (hd : envelope ∉ discovered rest) : envelope ∈ enqueued rest ↔ Flushed past rest := by
  induction rest generalizing past with
  | nil => simp [enqueued, Flushed]
  | cons turn rest ih =>
    have hh := play_heeds_before config usual moves he
    have hs : (play config usual moves).history = (past ++ [turn]) ++ rest := by simp [he]
    have hb : turn.before = Channel.now config past :=
      (play_chronicle config usual moves).course _ _ _ he
    rw [← hb] at hw
    have hn : turn.before.candidates.waiting ≠ [] := List.ne_nil_of_mem hw
    have hd' : envelope ∉ discovered rest := fun hm => hd (List.mem_append_right _ hm)
    have hcons : envelope ∈ enqueued (turn :: rest) ↔
        envelope ∈ turn.enqueued ∨ envelope ∈ enqueued rest := List.mem_append
    rw [hcons]
    by_cases hends : turn.EndsWait
    · have hlater : envelope ∉ enqueued rest := by
        refine play_not_enqueued config usual moves hs ?_ hd'
        rw [Channel.now_snoc, Turn.waiting_of_endsWait hh.flows.orderly hends]
        exact List.not_mem_nil
      rw [flushed_cons_of_endsWait hends, or_iff_left hlater]
      refine ⟨fun hm => ?_, fun hf => hf.enqueued hh ▸ hw⟩
      by_contra hf
      rw [Turn.enqueued_of_not_flushes hh hn hf] at hm
      exact List.not_mem_nil hm
    · obtain ⟨hnone, hkept⟩ := Turn.waiting_of_not_endsWait hh.flows.orderly hn hends
      have hm : envelope ∈ (Channel.now config (past ++ [turn])).candidates.waiting := by
        rw [Channel.now_snoc, hkept]
        exact List.mem_append_left _ hw
      rw [flushed_cons hends, hnone, or_iff_right List.not_mem_nil, ih hs hm hd']

/--
A candidate that waits while it is reported as removed is named at once by a message of its own,
and it goes on waiting like all others. So it is sent after that message if and only if a report of
a stable state ends the wait, no new path being due then; a teardown or a due path discards it.
-/
theorem play_withdrawn_sent_iff {turn : Turn} {removed : List String} {text id mid : String}
    {line : UInt32} (he : (play config usual moves).history = past ++ turn :: rest)
    (hr : turn.stimulus = .candidatesRemoved removed) (ht : text ∈ removed)
    (hw : .ofCandidate id mid line text ∈ turn.before.candidates.waiting)
    (hd : .ofCandidate id mid line text ∉ discovered rest) :
    (∃ named, attributeLine text ∈ named ∧
      handedOver (play config usual moves).log ++ (play config usual moves).outgoing.waiting =
        sent past ++ ⟨turn.before.session, .removedCandidates named⟩ :: sent rest) ∧
      turn.after.candidates = turn.before.candidates ∧
      (.ofCandidate id mid line text ∈ sent rest ↔ Flushed (past ++ [turn]) rest) := by
  have hreaction : turn.reaction =
      { channel := turn.before, effects := [.send (.ofRemoved turn.before.session removed)] } := by
    rw [Turn.reaction_eq hr]
    exact if_neg (List.ne_nil_of_mem ht)
  have hafter : turn.after = turn.before := by rw [Turn.after, hreaction]
  have hs : (play config usual moves).history = (past ++ [turn]) ++ rest := by simp [he]
  refine ⟨⟨removed.map attributeLine, List.mem_map_of_mem ht, ?_⟩, by rw [hafter], ?_⟩
  · rw [(play_dispatches config usual moves).order, he]
    simp [sent, hreaction, Reaction.sent, SignalingEnvelope.ofRemoved]
  · rw [mem_sent_iff_mem_enqueued rfl]
    refine play_enqueued_iff config usual moves hs ?_ hd
    rw [Channel.now_snoc, hafter]
    exact hw

/-- A candidate is found, removed while it waits, and sent when the exchange is over. -/
def removedMidway : Rehearsal :=
  play {} (fun _ => acknowledgement "session")
    [.command (.signalingChanged .haveLocalOffer),
      .command (.candidateFound ⟨"0", 0, "path"⟩),
      .command (.candidatesRemoved ["path"]),
      .command (.signalingChanged .stable),
      .turn, .turn]

theorem removedMidway_sent : ∃ past turn rest, removedMidway.history = past ++ turn :: rest ∧
    turn.stimulus = .candidatesRemoved ["path"] ∧
    .ofCandidate "" "0" 0 "path" ∈ turn.before.candidates.waiting ∧
    .ofCandidate "" "0" 0 "path" ∈ sent rest ∧
    handedOver removedMidway.log =
      [⟨"", .removedCandidates ["a=path"]⟩, ⟨"", .candidate ⟨0, "0", "a=path"⟩⟩] := by
  have he : removedMidway.history =
      removedMidway.history.take 2 ++ removedMidway.history[2] :: [removedMidway.history[3]] := rfl
  have hw : .ofCandidate "" "0" 0 "path" ∈
      (removedMidway.history[2]).before.candidates.waiting := List.mem_singleton.mpr rfl
  obtain ⟨_, _, hi⟩ := play_withdrawn_sent_iff {} (fun _ => acknowledgement "session") _ he rfl
    (List.mem_singleton.mpr rfl) hw (by decide)
  have hp : removedMidway.history = removedMidway.history.take 3 ++ removedMidway.history.drop 3 :=
    rfl
  have hn : ¬ RestartDue (removedMidway.history.take 3) := fun hd =>
    Bool.false_ne_true ((play_heeds {} _ _ hp).noted.mpr hd)
  exact ⟨_, _, _, he, rfl, hw, hi.mpr ⟨[], _, [], rfl, by simp, rfl, hn⟩, rfl⟩

/-- The candidate is handed over after the message that names it as removed. -/
theorem removed_candidate_returns :
    ¬ ∀ (config : ChannelConfig) (usual : Endpoint → Answer) (moves : List Move)
        (past rest : List Turn) (turn : Turn) (removed : List String) (text id mid : String)
        (line : UInt32),
      (play config usual moves).history = past ++ turn :: rest →
      turn.stimulus = .candidatesRemoved removed → text ∈ removed →
      .ofCandidate id mid line text ∈ turn.before.candidates.waiting →
      .ofCandidate id mid line text ∉ discovered rest →
      .ofCandidate id mid line text ∉ sent rest := by
  intro h
  have he : removedMidway.history =
      removedMidway.history.take 2 ++ removedMidway.history[2] :: [removedMidway.history[3]] := rfl
  have hw : .ofCandidate "" "0" 0 "path" ∈
      (removedMidway.history[2]).before.candidates.waiting := List.mem_singleton.mpr rfl
  have hn := h {} (fun _ => acknowledgement "session") _ _ _ _ _ _ _ _ _ he rfl
    (List.mem_singleton.mpr rfl) hw (by decide)
  exact hn (by decide)

end Rehearsal

end MediaSession
