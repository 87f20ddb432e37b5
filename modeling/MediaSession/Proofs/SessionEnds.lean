import MediaSession.Proofs.Spending

namespace MediaSession

/-- The sessions that the acknowledgements met by these steps have brought. -/
def acknowledged (history : List Turn) : List String :=
  history.filterMap (·.stimulus.acknowledged?)

theorem acknowledged_snoc (past : List Turn) (turn : Turn) :
    acknowledged (past ++ [turn]) =
      acknowledged past ++ turn.stimulus.acknowledged?.toList := by
  cases ha : turn.stimulus.acknowledged? <;> simp [acknowledged, ha]

/-- The sessions whose end the server has been told. -/
def endings (log : List Record) : List String := log.filterMap Record.ended?

theorem callClass_closes : CallClass Record.closes := by
  intro record hr
  cases record with
  | engine _ => rfl
  | _ => cases hr

theorem Channel.bears_upon (c : Channel) (stimulus : Stimulus) (id : String) :
    (c.upon stimulus).bears id ≤ c.bears id + stimulus.acknowledged?.toList.count id := by
  cases h : stimulus.acknowledged? with
  | none => simp [Channel.bears, Channel.upon, h]
  | some session => simp [Channel.bears, Channel.upon, h, List.count_singleton]

/-- What has been spent and what is left are no more than what there has been. -/
structure Accounts (past : List Turn) (c : Channel) : Prop where
  session : ∀ id, id ≠ "" →
    (endings (asked past)).count id + c.bears id ≤ (acknowledged past).count id
  connection : (asked past).countP Record.closes + c.isOpen.toNat = 1

theorem Accounts.start (config : ChannelConfig) : Accounts [] { config } := by
  refine ⟨fun id hi => ?_, rfl⟩
  simp [endings, asked, Channel.bears, hi.symm]

theorem Accounts.snoc {past : List Turn} {turn : Turn} (h : Accounts past turn.before) :
    Accounts (past ++ [turn]) turn.after := by
  have hs := turn.before.meet_spends turn.stimulus
  refine ⟨fun id hi => ?_, ?_⟩
  · -- An acknowledgement adds its session to what the channel bears and to what was acknowledged.
    have he := hs.session id hi
    have hp := h.session id hi
    have hb := turn.before.bears_upon turn.stimulus id
    have hr : endings (asked (past ++ [turn])) = endings (asked past) ++ turn.reaction.ended := by
      simp [endings, asked, ← Reaction.filterMap_ended?_asked]
    rw [acknowledged_snoc, hr, List.count_append, List.count_append]
    unfold Turn.after Turn.reaction at *
    omega
  · have hc := hs.connection
    have hp := h.connection
    simp only [asked, List.flatMap_append, List.flatMap_singleton, List.countP_append,
      Reaction.countP_closes_asked] at hp ⊢
    unfold Turn.after Turn.reaction at *
    simp only [Channel.upon] at hc
    omega

theorem Course.accounts {config : ChannelConfig} {past : List Turn} (h : Course config past) :
    Accounts past (Channel.now config past) :=
  h.induction (.start config) fun _ _ h => h.snoc

namespace Rehearsal

variable (config : ChannelConfig) (usual : Endpoint → Answer) (moves : List Move)

/-- No call on the server or the engine is made that no step has asked for. -/
theorem play_log_le {p : Record → Bool} (hp : CallClass p) :
    (play config usual moves).log.countP p ≤
      (asked (play config usual moves).history).countP p := by
  rw [← play_recorded config usual moves p hp]
  exact Nat.le_add_right _ _

theorem play_endings_le {id : String} (hi : id ≠ "") :
    (endings (play config usual moves).log).count id ≤
      (acknowledged (play config usual moves).history).count id := by
  have hp : CallClass fun record => record.ended? == some id := by
    intro record hr
    cases record with
    | reportEnd _ _ => rfl
    | _ => cases hr
  have ha := (play_chronicle config usual moves).course.accounts.session id hi
  have hl := play_log_le config usual moves hp
  rw [← List.count_filterMap, ← List.count_filterMap] at hl
  simp only [endings] at ha ⊢
  omega

theorem play_closes_le : (play config usual moves).log.countP Record.closes ≤ 1 := by
  have ha := (play_chronicle config usual moves).course.accounts.connection
  have hl := play_log_le config usual moves callClass_closes
  omega

/--
If no two acknowledgements bring the same session, the server is told the end of each session at
most once, and at no moment before the session has been acknowledged. The connection of the engine
is closed at most once. The empty identity is that of no session.
-/
theorem play_ended_once (hd : (acknowledged (play config usual moves).history).Nodup) :
    (∀ id, id ≠ "" → (endings (play config usual moves).log).count id ≤ 1 ∧
      ∀ earlier later, moves = earlier ++ later →
        id ∈ endings (play config usual earlier).log →
        id ∈ acknowledged (play config usual earlier).history) ∧
    (play config usual moves).log.countP Record.closes ≤ 1 := by
  refine ⟨fun id hi => ⟨?_, fun earlier later _ hm => ?_⟩, play_closes_le config usual moves⟩
  · have hc := List.nodup_iff_count_le_one.mp hd id
    exact Nat.le_trans (play_endings_le config usual moves hi) hc
  · have hc := List.count_pos_iff.mpr hm
    exact List.count_pos_iff.mp (Nat.lt_of_lt_of_le hc (play_endings_le config usual earlier hi))

def microphone : LocalStream :=
  { media := some { id := "media", audioTracks := [{ id := "track", kind := .audio }] } }

def acknowledgement (session : String) : Answer := .ok ⟨⟨session, "transport"⟩, ⟨.answer, ""⟩, {}⟩

/-- A session that an error ends, and one that ends with the channel. -/
def twoSessions : Rehearsal :=
  play {} (fun _ => .error .closed)
    [.command (.plan .request
        [.answer (acknowledgement "first"), .answer (acknowledgement "second")]),
      .command (.publish (some microphone) { name := "first" }),
      .turn,
      .command (.connectionChanged .connected),
      .command (.connectionChanged .failed),
      .command (.publish (some microphone) { name := "second" }),
      .turn, .turn, .turn,
      .command .drop,
      .turn]

theorem twoSessions_ended_once :
    acknowledged twoSessions.history = ["first", "second"] ∧
      endings twoSessions.log = ["first", "second"] ∧
      (∀ id, id ≠ "" → (endings twoSessions.log).count id ≤ 1) ∧
      twoSessions.log.countP Record.closes ≤ 1 := by
  have ha : acknowledged twoSessions.history = ["first", "second"] := rfl
  have hd : (acknowledged twoSessions.history).Nodup := ha ▸ by decide
  obtain ⟨ho, hc⟩ := play_ended_once {} (fun _ => .error .closed) _ hd
  exact ⟨ha, rfl, fun id hi => (ho id hi).1, hc⟩

end Rehearsal

end MediaSession
