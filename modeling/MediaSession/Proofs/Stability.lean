import MediaSession.Proofs.CandidateFlow
import MediaSession.Proofs.SessionEnds

namespace MediaSession

/-- The buffer takes the signaling for stable exactly if it is, and holds nothing back then. -/
structure Channel.InStep (c : Channel) : Prop where
  stable : c.candidates.stable = c.signaling.isStable
  empty : c.candidates.stable = true → c.candidates.waiting = []

namespace Channel

variable {c : Channel}

theorem InStep.candidateFound (h : c.InStep) (candidate : IceCandidate) :
    (c.candidateFound candidate).channel.InStep := by
  cases hs : c.candidates.stable with
  | true =>
    have hc : (c.candidateFound candidate).channel = c := by
      simp [Channel.candidateFound, CandidateBuffer.offer, hs]
    rw [hc]
    exact h
  | false =>
    have hb : (c.candidateFound candidate).channel.candidates.stable = false := by
      simp [Channel.candidateFound, CandidateBuffer.offer, hs]
    have hg : (c.candidateFound candidate).channel.signaling = c.signaling := rfl
    refine ⟨?_, fun ht => ?_⟩
    · rw [hb, hg, ← h.stable, hs]
    · exact absurd (hb.symm.trans ht) Bool.false_ne_true

/-- The report itself is what brings both to the same state, whatever they were in before. -/
theorem signalingChanged_inStep (c : Channel) (state : SignalingState) :
    (c.signalingChanged state).channel.InStep := by
  cases hs : state.isStable with
  | false =>
    rw [signalingChanged_unstable hs]
    exact ⟨hs.symm, fun ht => absurd ht Bool.false_ne_true⟩
  | true =>
    cases hn : c.restartNoted with
    | false =>
      rw [signalingChanged_stable hs hn]
      exact ⟨hs.symm, fun _ => rfl⟩
    | true =>
      rw [signalingChanged_restart hs hn, executeRestart_eq]
      exact ⟨hs.symm, fun _ => rfl⟩

/-- A teardown empties the buffer and leaves the signaling as it was reported. -/
theorem InStep.of_passes {reaction : Reaction} (h : c.InStep) (hp : c.Passes reaction) :
    reaction.channel.InStep := by
  rcases hp.candidates with hc | ⟨_, hc⟩
  · refine ⟨?_, ?_⟩
    · rw [hc, hp.signaling, h.stable]
    · rw [hc]
      exact h.empty
  · refine ⟨?_, fun _ => ?_⟩
    · rw [hc, hp.signaling, ← h.stable]
      rfl
    · rw [hc]
      rfl

theorem InStep.meet (h : c.InStep) (stimulus : Stimulus) : (c.meet stimulus).channel.InStep := by
  cases hf : stimulus.found? with
  | some candidate =>
    rw [Stimulus.eq_of_found? hf]
    exact h.candidateFound candidate
  | none =>
    cases hr : stimulus.reported? with
    | some state =>
      rw [Stimulus.eq_of_reported? hr]
      exact c.signalingChanged_inStep state
    | none => exact h.of_passes ((c.meet_reacts stimulus).passes hf hr)

end Channel

theorem Course.inStep {config : ChannelConfig} {past : List Turn} (h : Course config past) :
    (Channel.now config past).InStep :=
  h.induction (P := fun _ c => c.InStep) ⟨rfl, fun _ => rfl⟩
    fun _ turn hs => hs.meet turn.stimulus

namespace Rehearsal

/--
After every step of a run the buffer and the signaling agree on stability, and the buffer is empty
in a stable state; so whatever it holds, the state that was reported last was not stable. No step
disturbs this, whatever the channel meets and in whatever state.
-/
theorem play_stability_agrees (config : ChannelConfig) (usual : Endpoint → Answer)
    (moves : List Move) {past rest : List Turn}
    (he : (play config usual moves).history = past ++ rest) :
    (Channel.now config past).InStep ∧
      (0 < (Channel.now config past).candidates.waiting.length → reported past ≠ .stable) ∧
      ∀ turn : Turn, turn.before.InStep → turn.after.InStep := by
  have hc : Course config (past ++ rest) := he ▸ (play_chronicle config usual moves).course
  have hi : (Channel.now config past).InStep := hc.left.inStep
  refine ⟨hi, fun hw hr => ?_, fun turn hb => hb.meet turn.stimulus⟩
  have hg : (Channel.now config past).signaling = .stable :=
    (play_flows config usual moves he).reported.trans hr
  have hs : (Channel.now config past).candidates.stable = true := by
    rw [hi.stable, hg]
    rfl
  have hn := hi.empty hs
  rw [hn] at hw
  exact Nat.lt_irrefl 0 hw

/-- A publication is ended in the midst of an exchange, and candidates are found again after it. -/
def endedMidway : List Turn :=
  (play {} (fun _ => acknowledgement "session")
    [.command (.publish (some microphone) { name := "first" }),
      .turn,
      .command (.signalingChanged .haveLocalOffer),
      .command (.candidateFound ⟨"0", 0, "early"⟩),
      .command (.unpublish none none),
      .command (.candidateFound ⟨"0", 0, "late"⟩)]).history

theorem endedMidway_agrees :
    (Channel.now {} endedMidway).candidates.waiting = [.ofCandidate "" "0" 0 "late"] ∧
      (Channel.now {} endedMidway).InStep ∧ reported endedMidway ≠ .stable := by
  have he : endedMidway = endedMidway ++ [] := rfl
  obtain ⟨hi, hr, _⟩ := play_stability_agrees {} _ _ he
  have hw : (Channel.now {} endedMidway).candidates.waiting =
      [.ofCandidate "" "0" 0 "late"] := rfl
  exact ⟨hw, hi, hr (by simp [hw])⟩

end Rehearsal

end MediaSession
