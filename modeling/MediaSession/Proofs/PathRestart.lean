import MediaSession.Proofs.CandidateFlow
import MediaSession.Proofs.Spending

namespace MediaSession

/-- The kind of description that an effect has the engine create. -/
@[simp] def Effect.creation? : Effect → Option Creation
  | .spawn (.create creation _) => some creation
  | .proceed (.create creation _) => some creation
  | _ => none

/-- The creations of descriptions that a step starts. -/
def Turn.started (turn : Turn) : List Creation := turn.reaction.effects.filterMap Effect.creation?

/-- The creations that a step starts for a new path: when it is asked for, or with a report. -/
def Turn.restarts (turn : Turn) : List Creation :=
  match turn.stimulus with
  | .restartIce => turn.started
  | .signalingChanged _ => turn.started
  | _ => []

/-- A new path was asked for in a state that was not stable, and none that is was reported since. -/
def RestartDue (past : List Turn) : Prop :=
  ∃ before call after, past = before ++ call :: after ∧ call.stimulus = .restartIce ∧
    reported before ≠ .stable ∧ ∀ turn ∈ after, turn.stimulus.reported? ≠ some .stable

theorem restartDue_snoc {past : List Turn} {turn : Turn} :
    RestartDue (past ++ [turn]) ↔ turn.stimulus = .restartIce ∧ reported past ≠ .stable ∨
      RestartDue past ∧ turn.stimulus.reported? ≠ some .stable := by
  have h := exists_since_snoc
    (fun before call => call.stimulus = .restartIce ∧ reported before ≠ .stable)
    (fun turn => turn.stimulus.reported? ≠ some .stable) past turn
  simpa only [RestartDue, and_assoc] using h

theorem reported_append_ne_stable {past since : List Turn} (h : reported past ≠ .stable)
    (hs : ∀ turn ∈ since, turn.stimulus.reported? ≠ some .stable) :
    reported (past ++ since) ≠ .stable := by
  induction since using List.reverseRecOn with
  | nil => rwa [List.append_nil]
  | append_singleton since turn ih =>
    have hp := ih fun t ht => hs t (List.mem_append_left _ ht)
    have ht := hs turn (by simp)
    rw [← List.append_assoc, reported_snoc]
    cases hr : turn.stimulus.reported? with
    | none => exact hp
    | some state => simpa [hr] using ht

theorem RestartDue.reported_ne_stable {past : List Turn} (h : RestartDue past) :
    reported past ≠ .stable := by
  obtain ⟨before, call, after, rfl, hc, hb, ha⟩ := h
  refine reported_append_ne_stable hb fun turn ht => ?_
  rcases List.mem_cons.mp ht with rfl | ht
  · simp [hc, Stimulus.reported?]
  · exact ha turn ht

namespace Channel

variable {c : Channel} {state : SignalingState}

theorem executeRestart_created :
    c.executeRestart.effects.filterMap Effect.creation? = if c.isOpen then [.offer] else [] := by
  cases ho : c.isOpen <;> simp [executeRestart, create, still, ho]

theorem restartIce_started :
    Turn.started ⟨c, .restartIce⟩ =
      if c.isOpen && c.signaling.isStable then [.offer] else [] := by
  cases hs : c.signaling.isStable <;>
    simp [Turn.started, Turn.reaction, meet, restartIce, hs, executeRestart_created]

theorem signalingChanged_started :
    Turn.started ⟨c, .signalingChanged state⟩ =
      if c.isOpen && (state.isStable && c.restartNoted) then [.offer] else [] := by
  unfold Turn.started Turn.reaction
  cases hs : state.isStable with
  | false => simp [meet, signalingChanged_unstable hs]
  | true =>
    cases hn : c.restartNoted with
    | false => simp [meet, signalingChanged_stable hs hn]
    | true => simp [meet, signalingChanged_restart hs hn, executeRestart_created]

/-- In favour of a new path the buffer is emptied, nothing of it is sent, and the note is used. -/
theorem signalingChanged_clears (hs : state.isStable = true) (hn : c.restartNoted = true) :
    Turn.enqueued ⟨c, .signalingChanged state⟩ = [] ∧
      (Turn.after ⟨c, .signalingChanged state⟩).candidates.waiting = [] ∧
      (Turn.after ⟨c, .signalingChanged state⟩).restartNoted = false := by
  unfold Turn.enqueued Turn.after Turn.reaction
  cases ho : c.isOpen <;>
    simp [meet, signalingChanged_restart hs hn, executeRestart, create, still, ho]

end Channel

/-- The channel notes a new path exactly as long as one is due. -/
structure Heeds (past : List Turn) (c : Channel) : Prop where
  flows : Flows past c
  noted : c.restartNoted = true ↔ RestartDue past

theorem Heeds.start (config : ChannelConfig) : Heeds [] { config } :=
  ⟨.start config, by simp [RestartDue]⟩

theorem Heeds.snoc {past : List Turn} {turn : Turn} (h : Heeds past turn.before) :
    Heeds (past ++ [turn]) turn.after := by
  refine ⟨h.flows.snoc, ?_⟩
  have hr : turn.after.restartNoted = turn.before.noted turn.stimulus :=
    (turn.before.meet_spends turn.stimulus).restart
  rw [hr, restartDue_snoc, ← h.noted, ← h.flows.reported]
  cases turn.stimulus with
  | restartIce => simp [Channel.noted, Stimulus.reported?, SignalingState.isStable, or_comm]
  | signalingChanged state => simp [Channel.noted, Stimulus.reported?, SignalingState.isStable]
  | _ => simp [Channel.noted, Stimulus.reported?]

/-- Whether a task belongs to the creation of a description, which ends when it is applied. -/
def Task.describes : Task → Bool
  | .create _ _ => true
  | .setLocal _ => true
  | _ => false

/-- A new path is asked for, or the signaling changes while one is due. -/
def Turn.Renews (past : List Turn) (turn : Turn) : Prop :=
  turn.stimulus = .restartIce ∨ turn.stimulus.reported?.isSome ∧ RestartDue past

theorem Heeds.restarts_of_renews {past : List Turn} {turn : Turn} (h : Heeds past turn.before)
    (ho : turn.before.isOpen = true) (hs : reported (past ++ [turn]) = .stable)
    (hr : turn.Renews past) : turn.restarts = [.offer] := by
  rw [reported_snoc, ← h.flows.reported] at hs
  have hn := h.noted
  obtain ⟨c, stimulus⟩ := turn
  have hc : c.isOpen = true := ho
  rcases hr with rfl | ⟨hr, hd⟩
  · have hg : c.signaling = .stable := hs
    exact Channel.restartIce_started.trans (by simp [hc, hg, SignalingState.isStable])
  · obtain ⟨state, hr⟩ := Option.isSome_iff_exists.mp hr
    obtain rfl := Stimulus.eq_of_reported? hr
    have hg : state = .stable := hs
    have hd' : c.restartNoted = true := hn.mpr hd
    exact Channel.signalingChanged_started.trans (by simp [hc, hg, hd', SignalingState.isStable])

theorem Heeds.renews_of_restarts {past : List Turn} {turn : Turn} (h : Heeds past turn.before)
    (hr : turn.restarts ≠ []) :
    turn.before.isOpen = true ∧ reported (past ++ [turn]) = .stable ∧ turn.Renews past := by
  rw [reported_snoc, ← h.flows.reported]
  have hn := h.noted
  obtain ⟨c, stimulus⟩ := turn
  cases stimulus with
  | restartIce =>
    have hs : Turn.restarts ⟨c, .restartIce⟩ = _ := Channel.restartIce_started
    have hc : c.isOpen = true ∧ c.signaling = .stable := by
      simpa [hs, SignalingState.isStable] using hr
    exact ⟨hc.1, hc.2, Or.inl rfl⟩
  | signalingChanged state =>
    have hs : Turn.restarts ⟨c, .signalingChanged state⟩ = _ := Channel.signalingChanged_started
    have hc : c.isOpen = true ∧ state = .stable ∧ c.restartNoted = true := by
      simpa [hs, SignalingState.isStable] using hr
    exact ⟨hc.1, hc.2.1, Or.inr ⟨rfl, hn.mp hc.2.2⟩⟩
  | _ => exact absurd rfl hr

/-- Steps that begin with the report of a state and report no stable one. -/
structure Unstable (phase : List Turn) : Prop where
  onset : ∃ turn ∈ phase.head?, turn.stimulus.reported?.isSome
  unstable : ∀ turn ∈ phase, turn.stimulus.reported? ≠ some .stable

theorem Unstable.left {phase later : List Turn} (h : Unstable (phase ++ later))
    (hp : phase ≠ []) : Unstable phase := by
  refine ⟨?_, fun turn ht => h.unstable turn (List.mem_append_left _ ht)⟩
  obtain ⟨turn, ht, hr⟩ := h.onset
  rw [List.head?_append_of_ne_nil _ hp] at ht
  exact ⟨turn, ht, hr⟩

theorem Unstable.reported_ne_stable {earlier phase : List Turn} (h : Unstable phase) :
    reported (earlier ++ phase) ≠ .stable := by
  obtain ⟨turn, ht, hr⟩ := h.onset
  obtain ⟨later, rfl⟩ := List.head?_eq_some_iff.mp ht
  obtain ⟨state, hr⟩ := Option.isSome_iff_exists.mp hr
  have hu := h.unstable turn List.mem_cons_self
  have ho : reported (earlier ++ [turn]) ≠ .stable := by
    rw [reported_snoc, hr]
    rintro rfl
    exact hu hr
  have hl := reported_append_ne_stable ho fun t ht => h.unstable t (List.mem_cons_of_mem _ ht)
  rwa [List.append_assoc] at hl

/-- A path that is asked for in an unstable phase is due at its end. -/
theorem Unstable.restartDue {earlier phase : List Turn} {call : Turn} (h : Unstable phase)
    (hm : call ∈ phase) (hc : call.stimulus = .restartIce) : RestartDue (earlier ++ phase) := by
  obtain ⟨before, after, rfl⟩ := List.append_of_mem hm
  -- The phase begins with a report, so the call is not its first step.
  have hb : before ≠ [] := by
    rintro rfl
    obtain ⟨turn, ht, hr⟩ := h.onset
    obtain rfl := Option.some.inj ht
    simp [hc, Stimulus.reported?] at hr
  refine ⟨earlier ++ before, call, after, by simp, hc, (h.left hb).reported_ne_stable, ?_⟩
  exact fun turn ht => h.unstable turn (by simp [ht])

namespace Rehearsal

variable (config : ChannelConfig) (usual : Endpoint → Answer) (moves : List Move)
variable {past rest : List Turn}

theorem play_heeds (he : (play config usual moves).history = past ++ rest) :
    Heeds past (Channel.now config past) := by
  have hc : Course config (past ++ rest) := he ▸ (play_chronicle config usual moves).course
  exact hc.left.induction (.start config) fun _ _ h => h.snoc

theorem play_heeds_before {turn : Turn}
    (he : (play config usual moves).history = past ++ turn :: rest) : Heeds past turn.before := by
  rw [(play_chronicle config usual moves).course _ _ _ he]
  exact play_heeds config usual moves he

theorem play_restarts_unstable {earlier phase : List Turn}
    (he : (play config usual moves).history = earlier ++ phase ++ rest) (hp : Unstable phase) :
    phase.flatMap Turn.restarts = [] := by
  refine List.flatMap_eq_nil_iff.mpr fun turn ht => ?_
  obtain ⟨before, after, rfl⟩ := List.append_of_mem ht
  have he' : (play config usual moves).history =
      (earlier ++ before) ++ turn :: (after ++ rest) := by simp [he]
  have hh := play_heeds_before config usual moves he'
  have hp' : Unstable ((before ++ [turn]) ++ after) := by simpa using hp
  have hu : Unstable (before ++ [turn]) := hp'.left (by simp)
  by_contra hr
  exact hu.reported_ne_stable (by simpa using (hh.renews_of_restarts hr).2.1)

/--
A new path is noted in states only that are not stable. As long as the connection is open, a path
that is asked for in a stable state is begun at once, with one offer; all that are asked for in an
unstable phase are begun together, with one offer when the phase ends, and no candidate that was
held back is sent. Without such a note a stable state sends them all and offers nothing.
-/
theorem play_restarts_once (he : (play config usual moves).history = past ++ rest) :
    ((Channel.now config past).restartNoted = true → reported past ≠ .stable) ∧
      ∀ turn ∈ rest.head?,
        (turn.stimulus = .restartIce → reported past = .stable → turn.before.isOpen = true →
          turn.started = [.offer]) ∧
        (∀ earlier phase, past = earlier ++ phase → Unstable phase →
          (∃ call ∈ phase, call.stimulus = .restartIce) →
          turn.stimulus = .signalingChanged .stable → turn.before.isOpen = true →
          phase.flatMap Turn.restarts = [] ∧ turn.started = [.offer] ∧
            turn.enqueued = [] ∧ turn.after.candidates.waiting = [] ∧
            turn.after.restartNoted = false) ∧
        (turn.stimulus = .signalingChanged .stable → turn.before.restartNoted = false →
          turn.started = [] ∧ turn.enqueued = turn.before.candidates.waiting) := by
  refine ⟨fun hn => ((play_heeds config usual moves he).noted.mp hn).reported_ne_stable,
    fun turn ht => ?_⟩
  obtain ⟨rest, rfl⟩ := List.head?_eq_some_iff.mp ht
  have hh := play_heeds_before config usual moves he
  obtain ⟨c, stimulus⟩ := turn
  refine ⟨?_, ?_, ?_⟩
  · rintro rfl hs ho
    exact hh.restarts_of_renews ho (by simpa [reported_snoc, Stimulus.reported?] using hs)
      (Or.inl rfl)
  · rintro earlier phase rfl hp ⟨call, hm, hc⟩ rfl ho
    have hd : RestartDue (earlier ++ phase) := hp.restartDue hm hc
    have hs : reported (earlier ++ phase ++ [⟨c, .signalingChanged .stable⟩]) = .stable := by
      rw [reported_snoc]
      rfl
    exact ⟨play_restarts_unstable config usual moves he hp,
      hh.restarts_of_renews ho hs (Or.inr ⟨rfl, hd⟩),
      Channel.signalingChanged_clears rfl (hh.noted.mpr hd)⟩
  · rintro rfl hn
    have hn' : c.restartNoted = false := hn
    refine ⟨Channel.signalingChanged_started.trans (by simp [hn']), ?_⟩
    rw [Turn.enqueued, Turn.reaction, Channel.meet, Channel.signalingChanged_stable rfl hn]
    exact filterMap_candidate_send hh.flows.orderly.candidates

/-- Two calls in an unstable phase, with a candidate between them that is held back. -/
def restartTwice : List Turn :=
  (play {} (fun _ => .error .closed)
    [.command (.signalingChanged .haveLocalOffer),
      .command .restartIce,
      .command (.candidateFound ⟨"0", 0, "first"⟩),
      .command .restartIce,
      .command (.signalingChanged .stable)]).history

theorem restartTwice_once : ∃ phase turn,
    restartTwice = phase ++ [turn] ∧ Unstable phase ∧
      (Channel.now {} phase).restartNoted = true ∧
      (Channel.now {} phase).candidates.waiting = [.ofCandidate "" "0" 0 "first"] ∧
      phase.flatMap Turn.restarts = [] ∧ turn.started = [.offer] ∧ turn.enqueued = [] ∧
      turn.after.candidates.waiting = [] ∧ turn.after.restartNoted = false := by
  have he : restartTwice = restartTwice.take 4 ++ restartTwice.drop 4 := rfl
  have hp : Unstable (restartTwice.take 4) :=
    ⟨⟨_, rfl, rfl⟩, by decide⟩
  obtain ⟨_, hn⟩ := play_restarts_once {} _ _ he
  obtain ⟨_, hr, _⟩ := hn _ rfl
  have hc : ∃ call ∈ restartTwice.take 4, call.stimulus = .restartIce :=
    ⟨restartTwice[1], List.mem_of_getElem? (i := 1) rfl, rfl⟩
  exact ⟨_, _, he, hp, rfl, rfl, hr [] _ rfl hp hc rfl rfl⟩

/--
A step begins a new path if and only if the connection is open, the state that was reported last,
by this step or before, is stable, and a path is asked for or is due. So nothing is begun in the
midst of an exchange that the engine has reported; what it has not reported yet is not looked at.
-/
theorem play_restarts_iff {turn : Turn}
    (he : (play config usual moves).history = past ++ turn :: rest) :
    (turn.restarts = [.offer] ↔
      turn.before.isOpen = true ∧ reported (past ++ [turn]) = .stable ∧ turn.Renews past) ∧
    (turn.restarts = [] ∨ turn.restarts = [.offer]) := by
  have hh := play_heeds_before config usual moves he
  have renews (hr : turn.restarts ≠ []) := hh.renews_of_restarts hr
  refine ⟨⟨fun hr => renews (by simp [hr]), fun ⟨ho, hs, hr⟩ => hh.restarts_of_renews ho hs hr⟩, ?_⟩
  by_cases hr : turn.restarts = []
  · exact Or.inl hr
  · obtain ⟨ho, hs, hr⟩ := renews hr
    exact Or.inr (hh.restarts_of_renews ho hs hr)

theorem restartTwice_iff : ∃ past turn,
    restartTwice = past ++ [turn] ∧ turn.restarts = [.offer] ∧
      reported (past ++ [turn]) = .stable ∧ turn.Renews past := by
  have he : restartTwice = restartTwice.take 4 ++ restartTwice[4] :: [] := rfl
  obtain ⟨hi, _⟩ := play_restarts_iff {} _ _ he
  obtain ⟨_, hs, hr⟩ := hi.mp rfl
  exact ⟨_, _, he, rfl, hs, hr⟩

/-- The engine is asked for an offer and takes its time. -/
def offerHeld : List Move :=
  [.command (.plan .createOffer [.hold]), .command (.create .offer), .turn]

/-- A path that is asked for in a stable state is begun while the engine still creates an offer. -/
theorem restart_during_creation :
    ¬ ∀ (config : ChannelConfig) (usual : Endpoint → Answer) (moves : List Move) (turn : Turn),
      (play config usual (moves ++ [.command .restartIce])).history =
        (play config usual moves).history ++ [turn] →
      turn.restarts ≠ [] → ∀ task ∈ (play config usual moves).inFlight, task.describes = false := by
  intro h
  have hf := h {} (fun _ => .error .closed) offerHeld _ rfl (by decide) _ List.mem_cons_self
  cases hf

end Rehearsal

end MediaSession
