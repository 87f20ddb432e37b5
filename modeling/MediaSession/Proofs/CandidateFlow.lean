import MediaSession.Proofs.Chronicle
import MediaSession.Proofs.Settling
import Mathlib.Data.List.Basic

namespace MediaSession

/-- A list is parted into three lists that keep its order. -/
inductive Parted : List α → List α → List α → List α → Prop
  | nil : Parted [] [] [] []
  | first {x whole xs ys zs} (h : Parted whole xs ys zs) : Parted (x :: whole) (x :: xs) ys zs
  | second {x whole xs ys zs} (h : Parted whole xs ys zs) : Parted (x :: whole) xs (x :: ys) zs
  | third {x whole xs ys zs} (h : Parted whole xs ys zs) : Parted (x :: whole) xs ys (x :: zs)

namespace Parted

variable {whole whole' xs xs' ys ys' zs zs' : List α}

theorem append (h : Parted whole xs ys zs) (h' : Parted whole' xs' ys' zs') :
    Parted (whole ++ whole') (xs ++ xs') (ys ++ ys') (zs ++ zs') := by
  induction h with
  | nil => exact h'
  | first _ ih => exact .first ih
  | second _ ih => exact .second ih
  | third _ ih => exact .third ih

theorem all_first (xs : List α) : Parted xs xs [] [] := by
  induction xs with
  | nil => exact .nil
  | cons x xs ih => exact .first ih

theorem all_second (xs : List α) : Parted xs [] xs [] := by
  induction xs with
  | nil => exact .nil
  | cons x xs ih => exact .second ih

theorem all_third (xs : List α) : Parted xs [] [] xs := by
  induction xs with
  | nil => exact .nil
  | cons x xs ih => exact .third ih

theorem sublist (h : Parted whole xs ys zs) : xs.Sublist whole := by
  induction h with
  | nil => exact .slnil
  | first _ ih => exact ih.cons_cons _
  | second _ ih => exact ih.cons _
  | third _ ih => exact ih.cons _

end Parted

theorem diff_self [BEq α] [LawfulBEq α] (xs : List α) : xs.diff xs = [] := by
  induction xs with
  | nil => rfl
  | cons x xs ih => rw [List.diff_cons, List.erase_cons_head, ih]

namespace Turn

variable (turn : Turn)

/-- The candidate that a step discovers, as the server is to be told about it. -/
def discovered : List SignalingEnvelope :=
  turn.stimulus.found?.toList.map fun found =>
    ⟨turn.before.session, .candidate
      { lineIndex := found.lineIndex, mid := found.mid, candidate := "a=" ++ found.candidate }⟩

/-- The candidates that a step hands to the queue of outgoing messages. -/
def enqueued : List SignalingEnvelope := turn.reaction.effects.filterMap Effect.candidate?

/-- What a step finds in the buffer or discovers. -/
def pool : List SignalingEnvelope := turn.before.candidates.waiting ++ turn.discovered

/-- The candidates that a step neither enqueues nor leaves in the buffer. -/
def discarded : List SignalingEnvelope :=
  turn.pool.diff (turn.enqueued ++ turn.after.candidates.waiting)

/-- A candidate may be discarded by a teardown and in favour of a new path only. -/
def MayDiscard : Prop :=
  turn.stimulus = .signalingChanged .stable ∧ turn.before.restartNoted = true ∨
    turn.reaction.Dismantles

end Turn

def discovered (history : List Turn) : List SignalingEnvelope := history.flatMap Turn.discovered

def enqueued (history : List Turn) : List SignalingEnvelope := history.flatMap Turn.enqueued

def discarded (history : List Turn) : List SignalingEnvelope := history.flatMap Turn.discarded

/-- The state of the signaling that was reported last. -/
def reported (history : List Turn) : SignalingState :=
  (history.filterMap (·.stimulus.reported?)).getLast?.getD .stable

theorem reported_snoc (past : List Turn) (turn : Turn) :
    reported (past ++ [turn]) = turn.stimulus.reported?.getD (reported past) := by
  cases h : turn.stimulus.reported? <;> simp [reported, h]

/-- A step leaves the pool in the buffer, enqueues all of it or discards all of it. -/
inductive Turn.Routes (turn : Turn) : Prop
  | keeps (he : turn.enqueued = []) (hw : turn.after.candidates.waiting = turn.pool)
      (hs : turn.after.candidates.stable = true → turn.pool = [])
  | sends (he : turn.enqueued = turn.pool) (hw : turn.after.candidates.waiting = [])
      (hs : turn.after.candidates.stable = true)
  | discards (he : turn.enqueued = []) (hw : turn.after.candidates.waiting = [])
      (hd : turn.MayDiscard)

/-- The buffer is open in stable states only, and then empty; it holds nothing but candidates. -/
structure Channel.Orderly (c : Channel) : Prop where
  stable : c.candidates.stable = c.signaling.isStable
  waiting : c.candidates.stable = true → c.candidates.waiting = []
  candidates : ∀ envelope ∈ c.candidates.waiting,
    (Effect.send envelope).candidate? = some envelope

/-- What a step does to the signaling and to the candidates. -/
structure Turn.Carries (turn : Turn) : Prop where
  signaling : turn.after.signaling = turn.stimulus.reported?.getD turn.before.signaling
  stable : turn.after.candidates.stable = turn.after.signaling.isStable
  routes : turn.Routes

theorem filterMap_candidate_send {sent : List SignalingEnvelope}
    (h : ∀ envelope ∈ sent, (Effect.send envelope).candidate? = some envelope) :
    (sent.map Effect.send).filterMap Effect.candidate? = sent := by
  rw [List.filterMap_map]
  exact (List.filterMap_congr h).trans List.filterMap_some

namespace Channel

variable {c : Channel} {state : SignalingState}

/-- What the buffer is offered is what is discovered. -/
theorem discovered_candidateFound (c : Channel) (candidate : IceCandidate) :
    Turn.discovered ⟨c, .candidateFound candidate⟩ =
      [.ofCandidate c.session candidate.mid candidate.lineIndex candidate.candidate] := rfl

theorem candidateFound_carries (h : c.Orderly) (candidate : IceCandidate) :
    Turn.Carries ⟨c, .candidateFound candidate⟩ := by
  have hw := h.waiting
  have hg := h.stable
  have hd := discovered_candidateFound c candidate
  cases hs : c.candidates.stable with
  | true =>
    refine ⟨rfl, ?_, .sends ?_ ?_ ?_⟩ <;>
      simp_all [Turn.enqueued, Turn.pool, Turn.after, Turn.reaction, meet, candidateFound,
        CandidateBuffer.offer, SignalingEnvelope.ofCandidate]
  | false =>
    refine ⟨rfl, ?_, .keeps ?_ ?_ ?_⟩ <;>
      simp_all [Turn.enqueued, Turn.pool, Turn.after, Turn.reaction, meet, candidateFound,
        CandidateBuffer.offer]

theorem signalingChanged_carries (h : c.Orderly) (state : SignalingState) :
    Turn.Carries ⟨c, .signalingChanged state⟩ := by
  have hp : Turn.pool ⟨c, .signalingChanged state⟩ = c.candidates.waiting := by
    simp [Turn.pool, Turn.discovered, Stimulus.found?]
  cases hs : state.isStable with
  | false =>
    have hr : Turn.reaction ⟨c, .signalingChanged state⟩ = _ := signalingChanged_unstable hs
    refine ⟨?_, ?_, .keeps ?_ ?_ ?_⟩ <;> simp [Turn.enqueued, Turn.after, hr, hp, hs,
      Stimulus.reported?]
  | true =>
    cases hn : c.restartNoted with
    | false =>
      have hr : Turn.reaction ⟨c, .signalingChanged state⟩ = _ := signalingChanged_stable hs hn
      refine ⟨?_, ?_, .sends ?_ ?_ ?_⟩
      · simp [Turn.after, hr, Stimulus.reported?]
      · simp [Turn.after, hr, hs]
      · rw [Turn.enqueued, hr, hp]
        exact filterMap_candidate_send h.candidates
      · simp [Turn.after, hr]
      · simp [Turn.after, hr]
    | true =>
      have hr : Turn.reaction ⟨c, .signalingChanged state⟩ = _ :=
        (signalingChanged_restart hs hn).trans (executeRestart_eq _)
      refine ⟨?_, ?_, .discards ?_ ?_ (Or.inl ⟨?_, hn⟩)⟩
      · simp [Turn.after, hr, Stimulus.reported?]
      · simp [Turn.after, hr, hs]
      · exact List.filterMap_eq_nil_iff.mpr (by simp [hr])
      · simp [Turn.after, hr]
      · exact congrArg Stimulus.signalingChanged (by simpa [SignalingState.isStable] using hs)

end Channel

namespace Turn

variable {turn : Turn}

theorem carries_of_passes (h : turn.before.Orderly) (hf : turn.stimulus.found? = none)
    (hr : turn.stimulus.reported? = none) (hp : turn.before.Passes turn.reaction) :
    turn.Carries := by
  have he : turn.enqueued = [] := List.filterMap_eq_nil_iff.mpr hp.candidate
  have hd : turn.pool = turn.before.candidates.waiting := by simp [pool, discovered, hf]
  have hg : turn.after.signaling = turn.before.signaling := hp.signaling
  refine ⟨by rw [hg, hr]; rfl, ?_, ?_⟩
  · rw [hg, ← h.stable]
    rcases hp.candidates with hc | ⟨_, hc⟩
    · exact congrArg CandidateBuffer.stable hc
    · exact (congrArg CandidateBuffer.stable hc).trans rfl
  · rcases hp.candidates with hc | ⟨hd', hc⟩
    · refine .keeps he ?_ ?_
      · rw [hd, after, hc]
      · rw [hd, after, hc]
        exact h.waiting
    · exact .discards he (by rw [after, hc]; rfl) (Or.inr hd')

theorem carries (h : turn.before.Orderly) : turn.Carries := by
  cases hf : turn.stimulus.found? with
  | some candidate =>
    obtain ⟨before, stimulus⟩ := turn
    obtain rfl := Stimulus.eq_of_found? hf
    exact Channel.candidateFound_carries h candidate
  | none =>
    cases hr : turn.stimulus.reported? with
    | some state =>
      obtain ⟨before, stimulus⟩ := turn
      obtain rfl := Stimulus.eq_of_reported? hr
      exact Channel.signalingChanged_carries h state
    | none => exact carries_of_passes h hf hr ((turn.before.meet_reacts _).passes hf hr)

theorem candidate_of_mem_discovered {envelope : SignalingEnvelope}
    (h : envelope ∈ turn.discovered) : (Effect.send envelope).candidate? = some envelope := by
  obtain ⟨candidate, _, rfl⟩ := List.mem_map.mp h
  rfl

theorem discarded_eq_nil (h : turn.enqueued ++ turn.after.candidates.waiting = turn.pool) :
    turn.discarded = [] := by
  rw [discarded, h, diff_self]

theorem Carries.orderly (h : turn.Carries) (ho : turn.before.Orderly) : turn.after.Orderly := by
  refine ⟨h.stable, ?_, ?_⟩
  · intro hs
    cases h.routes with
    | keeps _ hw hp => rw [hw, hp hs]
    | sends _ hw => exact hw
    | discards _ hw => exact hw
  · intro envelope he
    cases h.routes with
    | keeps _ hw =>
      rw [hw] at he
      rcases List.mem_append.mp he with he | he
      · exact ho.candidates envelope he
      · exact candidate_of_mem_discovered he
    | sends _ hw => simp [hw] at he
    | discards _ hw => simp [hw] at he

end Turn

/-- What is not held back any more has been enqueued or discarded, before all that is held back. -/
structure Flows (past : List Turn) (c : Channel) : Prop where
  orderly : c.Orderly
  reported : c.signaling = reported past
  parted : ∃ settled, discovered past = settled ++ c.candidates.waiting ∧
    Parted settled (enqueued past) (discarded past) []

theorem Flows.snoc {past : List Turn} {turn : Turn} (h : Flows past turn.before) :
    Flows (past ++ [turn]) turn.after := by
  have hc := Turn.carries h.orderly
  refine ⟨hc.orderly h.orderly, ?_, ?_⟩
  · rw [hc.signaling, reported_snoc, h.reported]
  · obtain ⟨settled, hd, hp⟩ := h.parted
    have hpool : discovered (past ++ [turn]) = settled ++ turn.pool := by
      simp [discovered, Turn.pool] at hd ⊢
      rw [hd, List.append_assoc]
    have he : enqueued (past ++ [turn]) = enqueued past ++ turn.enqueued := by simp [enqueued]
    have hl : discarded (past ++ [turn]) = discarded past ++ turn.discarded := by simp [discarded]
    rw [hpool, he, hl]
    -- The buffer is emptied as a whole, so what leaves it comes after all that is settled.
    cases hc.routes with
    | keeps hn hw =>
      have hn' : turn.discarded = [] := Turn.discarded_eq_nil (by simp [hn, hw])
      exact ⟨settled, by rw [hw], by simpa [hn, hn'] using hp⟩
    | sends hn hw =>
      have hn' : turn.discarded = [] := Turn.discarded_eq_nil (by simp [hn, hw])
      refine ⟨settled ++ turn.pool, by simp [hw], ?_⟩
      rw [hn, hn']
      exact hp.append (.all_first turn.pool)
    | discards hn hw =>
      have hn' : turn.discarded = turn.pool := by simp [Turn.discarded, hn, hw]
      refine ⟨settled ++ turn.pool, by simp [hw], ?_⟩
      rw [hn, hn']
      exact hp.append (.all_second turn.pool)

theorem Flows.start (config : ChannelConfig) : Flows [] { config } :=
  ⟨⟨rfl, fun _ => rfl, by simp⟩, rfl, [], rfl, .nil⟩

theorem Rehearsal.play_flows (config : ChannelConfig) (usual : Endpoint → Answer)
    (moves : List Move) {past rest : List Turn}
    (he : (play config usual moves).history = past ++ rest) :
    Flows past (Channel.now config past) := by
  have hc : Course config (past ++ rest) := he ▸ (play_chronicle config usual moves).course
  exact hc.left.induction (.start config) fun _ _ h => h.snoc

/--
At every moment the candidates discovered so far are parted, in their order, into those enqueued,
those discarded and those in the buffer. The next step enqueues a candidate only in a stable state,
and it discards one only in favour of a new path or with a teardown.
-/
theorem Rehearsal.play_candidates_parted (config : ChannelConfig) (usual : Endpoint → Answer)
    (moves : List Move) {past rest : List Turn}
    (he : (play config usual moves).history = past ++ rest) :
    Parted (discovered past) (enqueued past) (discarded past)
        (Channel.now config past).candidates.waiting ∧
      (enqueued past).Sublist (discovered past) ∧
      ∀ turn ∈ rest.head?,
        (turn.enqueued ≠ [] → reported (past ++ [turn]) = .stable) ∧
          (turn.discarded ≠ [] → turn.MayDiscard) := by
  have hf := play_flows config usual moves he
  have hp : Parted (discovered past) (enqueued past) (discarded past)
      (Channel.now config past).candidates.waiting := by
    obtain ⟨settled, hd, hp⟩ := hf.parted
    rw [hd]
    simpa using hp.append (.all_third (Channel.now config past).candidates.waiting)
  refine ⟨hp, hp.sublist, fun turn ht => ?_⟩
  obtain ⟨rest, rfl⟩ := List.head?_eq_some_iff.mp ht
  have hb : turn.before = Channel.now config past :=
    (play_chronicle config usual moves).course _ _ rest he
  have hc := Turn.carries (hb ▸ hf.orderly)
  constructor
  · intro hn
    cases hc.routes with
    | keeps hn' => exact absurd hn' hn
    | sends _ _ hs =>
      rw [reported_snoc, ← hf.reported, ← hb, ← hc.signaling]
      simpa [hc.stable, SignalingState.isStable] using hs
    | discards hn' => exact absurd hn' hn
  · intro hn
    cases hc.routes with
    | keeps he hw => exact absurd (Turn.discarded_eq_nil (by simp [he, hw])) hn
    | sends he hw => exact absurd (Turn.discarded_eq_nil (by simp [he, hw])) hn
    | discards _ _ hd => exact hd

/-- The first candidate is sent at once, the second one discarded, the third one held back. -/
def Rehearsal.threeCandidates : List Turn :=
  (play {} (fun _ => .error .closed)
    [.command (.candidateFound ⟨"0", 7, "first"⟩),
      .command (.signalingChanged .haveLocalOffer),
      .command (.candidateFound ⟨"0", 7, "second"⟩),
      .command .restartIce,
      .command (.signalingChanged .stable),
      .command (.signalingChanged .haveLocalOffer),
      .command (.candidateFound ⟨"1", 8, "third"⟩),
      .command (.signalingChanged .stable)]).history

theorem Rehearsal.threeCandidates_parted : ∃ past rest,
    threeCandidates = past ++ rest ∧ rest.length = 1 ∧
      (Channel.now {} past).candidates.waiting = [⟨"", .candidate ⟨8, "1", "a=third"⟩⟩] ∧
      Parted (discovered past) [⟨"", .candidate ⟨7, "0", "a=first"⟩⟩]
        [⟨"", .candidate ⟨7, "0", "a=second"⟩⟩] (Channel.now {} past).candidates.waiting ∧
      ∀ turn ∈ rest.head?, turn.enqueued ≠ [] → reported (past ++ [turn]) = .stable := by
  have he : threeCandidates = threeCandidates.take 7 ++ threeCandidates.drop 7 := rfl
  obtain ⟨hp, _, hn⟩ := play_candidates_parted {} _ _ he
  exact ⟨_, _, he, rfl, rfl, hp, fun turn ht => (hn turn ht).1⟩

end MediaSession
