import MediaSession.Proofs.LogFlow
import MediaSession.Proofs.SessionEnds
import Mathlib.Data.List.TakeWhile

namespace MediaSession

/-- The text states a version at its start, blanks before it left out. -/
def StatesVersion (sdp : String) : Prop :=
  ∃ blanks rest, sdp.toList = blanks ++ 'v' :: '=' :: rest ∧ ∀ ch ∈ blanks, isBlank ch = true

theorem beginsWithVersion_iff {sdp : String} :
    beginsWithVersion sdp = true ↔ StatesVersion sdp := by
  unfold beginsWithVersion trimStart
  rw [List.isPrefixOf_iff_prefix]
  constructor
  · rintro ⟨rest, hr⟩
    refine ⟨sdp.toList.takeWhile isBlank, rest, ?_, fun ch hc => List.mem_takeWhile_imp hc⟩
    have hs := List.takeWhile_append_dropWhile (p := isBlank) (l := sdp.toList)
    rw [← hr] at hs
    exact hs.symm
  · rintro ⟨blanks, rest, hs, hb⟩
    have hv : isBlank 'v' = false := by decide
    rw [hs, List.dropWhile_append_of_pos hb, List.dropWhile_cons_of_neg (by simp [hv])]
    exact ⟨rest, rfl⟩

instance (sdp : String) : Decidable (StatesVersion sdp) :=
  decidable_of_iff _ beginsWithVersion_iff

/-- How a message is read: three kinds of them may concern the channel, and the others never do. -/
inductive ServerMessage.Reads : Datum → ServerMessage → Prop
  | success : Reads (.text "success") .success
  | failure : Reads (.text "failure") .failure
  | description {fields kind sdp} (hk : Datum.find? "type" fields = some (.text kind))
      (hs : Datum.find? "sdp" fields = some (.text sdp)) :
      Reads (.record fields) (.description kind sdp)
  | other {datum message} (hs : message ≠ .success) (hf : message ≠ .failure)
      (hd : ∀ kind sdp, message ≠ .description kind sdp) : Reads datum message

theorem ServerMessage.ofDatum_reads (datum : Datum) : Reads datum (ofDatum datum) := by
  unfold ofDatum
  split
  next status =>
    unfold ofStatus
    split
    next h => exact h ▸ .success
    next =>
      split
      next h => exact h ▸ .failure
      next => exact .other (by simp) (by simp) (by simp)
  next fields =>
    split
    next => exact .other (by simp) (by simp) (by simp)
    next kind sdp hk hs => exact .description hk hs
    next => exact .other (by simp) (by simp) (by simp)
  next => exact .other (by simp) (by simp) (by simp)

namespace Channel

/--
The messages on which a channel may act: a success that is awaited, a failure before the connection
if one is awaited, and an answer with a description.
-/
inductive ActsOn (c : Channel) : Datum → Prop
  | success (h : c.pending.publish ≠ none ∨ c.pending.subscribe ≠ none) :
      c.ActsOn (.text "success")
  | failure (hc : c.isConnected = false) (hf : c.pending.failure ≠ none) :
      c.ActsOn (.text "failure")
  | answer {fields sdp} (hk : Datum.find? "type" fields = some (.text "answer"))
      (hs : Datum.find? "sdp" fields = some (.text sdp)) : c.ActsOn (.record fields)

variable {c : Channel}

theorem serverSucceeded_still (hp : c.pending.publish = none) (hs : c.pending.subscribe = none) :
    c.serverSucceeded = c.still := by
  simp [serverSucceeded, hp, hs]

theorem serverFailed_still (h : c.isConnected = false → c.pending.failure = none) :
    c.serverFailed = c.still := by
  unfold serverFailed
  cases hc : c.isConnected with
  | true => rfl
  | false =>
    rw [h hc]
    rfl

theorem receive_still {message : Datum} (h : ¬ c.ActsOn message) :
    c.receive message = c.still := by
  unfold receive
  have hr := ServerMessage.ofDatum_reads message
  generalize ServerMessage.ofDatum message = read at hr ⊢
  cases hr with
  | success =>
    have hn : ¬ (c.pending.publish ≠ none ∨ c.pending.subscribe ≠ none) := fun hp => h (.success hp)
    obtain ⟨hp, hs⟩ := not_or.mp hn
    exact serverSucceeded_still (not_not.mp hp) (not_not.mp hs)
  | failure =>
    refine serverFailed_still fun hc => ?_
    by_contra hf
    exact h (.failure hc hf)
  | @description fields kind sdp hk hs =>
    have hn : kind ≠ "answer" := by
      rintro rfl
      exact h (.answer hk hs)
    exact if_neg hn
  | other hs hf hd =>
    split
    next => exact absurd rfl hs
    next => exact absurd rfl hf
    next kind sdp => exact absurd rfl (hd kind sdp)
    next => rfl

theorem receive_answer {fields : List (String × Datum)} {sdp : String}
    (hk : Datum.find? "type" fields = some (.text "answer"))
    (hs : Datum.find? "sdp" fields = some (.text sdp)) :
    c.receive (.record fields) = c.applyRemote sdp := by
  simp [receive, ServerMessage.ofDatum, hk, hs]

theorem applyRemote_stated {sdp : String} (hv : StatesVersion sdp) : c.applyRemote sdp =
    if c.isOpen then { channel := c, effects := [.spawn (.setRemote { kind := .answer, sdp })] }
    else c.still := by
  simp only [applyRemote, SessionDescription.parse, beginsWithVersion_iff.mpr hv, ↓reduceIte]

theorem applyRemote_unstated {sdp : String} (hv : ¬ StatesVersion sdp) :
    c.applyRemote sdp = c.failPending Cause.remoteDescription.error := by
  have hb : ¬ beginsWithVersion sdp = true := mt beginsWithVersion_iff.mp hv
  simp only [applyRemote, SessionDescription.parse, hb, Bool.false_eq_true, ↓reduceIte]

end Channel

namespace Rehearsal

theorem post_inFlight (r : Rehearsal) (notice : Notice) :
    (r.post notice).inFlight = r.inFlight := by
  simp only [post, inFlight]
  split <;> simp [Job.task?, List.filterMap_cons]

/-- Whoever is only told something calls nobody. -/
theorem foldl_post_frame {α : Type} (view : Rehearsal → α)
    (h : ∀ r notice, view (post r notice) = view r) (notices : List Notice) (r : Rehearsal) :
    view ((notices.map Effect.post).foldl perform r) = view r := by
  induction notices generalizing r with
  | nil => rfl
  | cons notice rest ih =>
    rw [List.map_cons, List.foldl_cons, ih]
    exact h r notice

variable (r : Rehearsal) {c : Channel}

theorem execute_receive (hc : r.channel = some c) (message : Datum) :
    ((Command.receive message).execute r).1 = r.meet ⟨c, .receive message⟩ := by
  simp only [Command.execute, withChannel, hc]

/-- A step in which nothing happens is only counted. -/
theorem meet_still {turn : Turn} (hc : r.channel = some turn.before)
    (h : turn.reaction = turn.before.still) :
    r.meet turn = { r with history := r.history ++ [turn] } := by
  simp only [meet, Turn.after, h, Channel.still, List.foldl_nil, hc.symm]

/--
A message of the server leaves everything as it was, unless it is a success while a publication or
a subscription awaits one, a failure while the channel is not connected and a failure is awaited, or
an answer with a text. The answer is given to the engine, as an answer and unchanged, if its text
states a version and the connection is open; else nobody is called.
-/
theorem receive_acts_only (hc : r.channel = some c) (message : Datum) :
    (¬ c.ActsOn message → ((Command.receive message).execute r).1 =
        { r with history := r.history ++ [⟨c, .receive message⟩] }) ∧
      ∀ fields sdp, message = .record fields →
        Datum.find? "type" fields = some (.text "answer") →
        Datum.find? "sdp" fields = some (.text sdp) →
        (StatesVersion sdp ∧ c.isOpen = true →
          ∃ task, task.record = .engine (.setRemote { kind := .answer, sdp }) ∧
            ((Command.receive message).execute r).1 =
              { r with
                runQueue := r.runQueue ++ [.start task]
                history := r.history ++ [⟨c, .receive message⟩] }) ∧
        (¬ (StatesVersion sdp ∧ c.isOpen = true) →
          ((Command.receive message).execute r).1.log = r.log ∧
            ((Command.receive message).execute r).1.inFlight = r.inFlight) := by
  rw [r.execute_receive hc]
  refine ⟨fun h => r.meet_still hc (Channel.receive_still h), ?_⟩
  rintro fields sdp rfl hk hs
  have hr : (Turn.mk c (.receive (.record fields))).reaction = c.applyRemote sdp :=
    Channel.receive_answer hk hs
  refine ⟨fun ⟨hv, ho⟩ => ?_, fun hn => ?_⟩
  · refine ⟨.setRemote { kind := .answer, sdp }, rfl, ?_⟩
    rw [Channel.applyRemote_stated hv, if_pos ho] at hr
    simp only [meet, Turn.after, hr, List.foldl_cons, List.foldl_nil, perform, ← hc]
  · by_cases hv : StatesVersion sdp
    · have ho : c.isOpen ≠ true := fun ho => hn ⟨hv, ho⟩
      rw [Channel.applyRemote_stated hv, if_neg ho] at hr
      rw [r.meet_still hc hr]
      exact ⟨rfl, rfl⟩
    · rw [Channel.applyRemote_unstated hv] at hr
      have he : (Turn.mk c (.receive (.record fields))).reaction.effects =
          (c.pending.takeFailure.1.toList.map
            (Notice.failed · Cause.remoteDescription.error)).map Effect.post := by
        rw [hr, List.map_map]
        rfl
      unfold meet
      rw [he]
      exact ⟨foldl_post_frame log (fun _ _ => rfl) _ _, foldl_post_frame inFlight post_inFlight _ _⟩

/-- A publication that the server has acknowledged and whose description it is going to answer. -/
def describedPublication : Rehearsal :=
  play {} (fun _ => acknowledgement "session")
    [.command (.publish (some microphone) { name := "first" }),
      .turn, .turn, .turn]

theorem describedPublication_acts_only : ∃ c, describedPublication.channel = some c ∧
    ((Command.receive (.record [("type", .text "offer"), ("sdp", .text "v=0")])).execute
        describedPublication).1.channel = some c ∧
      ∃ task, task.record = .engine (.setRemote { kind := .answer, sdp := " v=0" }) ∧
        ((Command.receive (.record [("sdp", .text " v=0"), ("type", .text "answer")])).execute
            describedPublication).1.runQueue = describedPublication.runQueue ++ [.start task] := by
  have hc : describedPublication.channel = some (Channel.now {} describedPublication.history) :=
    rfl
  have hn : ¬ (Channel.now {} describedPublication.history).ActsOn
      (.record [("type", .text "offer"), ("sdp", .text "v=0")]) := by
    intro h
    cases h with
    | answer hk hs => simp [Datum.find?] at hk
  have hv : StatesVersion " v=0" := by decide
  refine ⟨_, hc, ?_, ?_⟩
  · rw [(receive_acts_only describedPublication hc _).1 hn]
    exact hc
  · have hk : Datum.find? "type" [("sdp", .text " v=0"), ("type", .text "answer")] =
        some (.text "answer") := by simp [Datum.find?]
    have hs : Datum.find? "sdp" [("sdp", .text " v=0"), ("type", .text "answer")] =
        some (.text " v=0") := by simp [Datum.find?]
    obtain ⟨task, ht, he⟩ :=
      ((receive_acts_only describedPublication hc _).2 _ _ rfl hk hs).1 ⟨hv, rfl⟩
    exact ⟨task, ht, by rw [he]⟩

end Rehearsal

end MediaSession
