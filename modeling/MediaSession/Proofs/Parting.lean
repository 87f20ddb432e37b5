import MediaSession.Proofs.Aftermath
import MediaSession.Proofs.ConnectivityLoss

namespace MediaSession

/-- The end of a stream as the server is told of it. -/
def Record.report? : Record → Option (StreamEvent × String)
  | .reportEnd event session => some (event, session)
  | _ => none

def reports (log : List Record) : List (StreamEvent × String) := log.filterMap Record.report?

namespace Channel

/-- The active streams that a dropped channel ends: a subscription only if it is set up, and if no
publication takes the identity of the session away from it. -/
def departures (c : Channel) : List StreamEvent :=
  (if c.published.isSome then [.unpublish] else []) ++
    if c.subscribed.isSome && c.pending.subscribe.isNone &&
        (c.published.isNone || c.session = "") then [.unsubscribe]
    else []

/-- The first stream that ends takes the connection with it. -/
def farewell (c : Channel) : List StreamEvent → List Effect
  | [] => []
  | event :: rest =>
    (c.dismantle event none).effects ++
      rest.map fun event => .spawn (.reportEnd event c.session none)

/-- The server is told the end of every active stream once, and the connection is closed. -/
structure Departs (c : Channel) (asked : List Record) : Prop where
  reported : ∀ event, c.Active event → (reports asked).count (event, c.session) = 1
  closed : (∃ event, c.Active event) → c.isOpen = true → asked.countP Record.closes = 1

variable {c : Channel}

theorem endStreams_effects_of_subscribed (hp : c.published = none) (hs : c.subscribed ≠ none) :
    c.endStreams.effects = c.farewell c.departures := by
  have hs' := Option.isSome_iff_ne_none.mpr hs
  rw [endStreams_subscribed hp hs]
  by_cases hq : c.pending.subscribe = none
  · rw [unsubscribe_own hq]
    simp [departures, farewell, hp, hs', hq]
  · rw [unsubscribe_still (Or.inr hq)]
    simp [departures, farewell, still, hp, hs', hq]

/-- What ends the publication leaves no identity that the subscription could be compared with. -/
theorem endStreams_effects_of_both (hp : c.published ≠ none) (hs : c.subscribed ≠ none) :
    c.endStreams.effects = c.farewell c.departures := by
  have hp' := Option.isSome_iff_ne_none.mpr hp
  have hs' := Option.isSome_iff_ne_none.mpr hs
  rw [endStreams_both hp hs, unpublish_own]
  by_cases hk : c.pending.subscribe = none ∧ c.session = ""
  · obtain ⟨hq, hi⟩ := hk
    simp [departures, farewell, unsubscribe, dismantle, Reaction.andThen, hp', hs', hq, hi]
  · have hd : c.departures = [.unpublish] := by
      simpa [departures, hp', hs', hp] using hk
    have hu : Channel.unsubscribe { (c.dismantle .unpublish none).channel with published := none }
        c.session none =
          Channel.still { (c.dismantle .unpublish none).channel with published := none } :=
      unsubscribe_still (not_and_or.mp hk).symm
    simp only [Reaction.andThen, hu, hd, farewell]
    rfl

theorem endStreams_effects (c : Channel) : c.endStreams.effects = c.farewell c.departures := by
  by_cases hs : c.subscribed = none
  · by_cases hp : c.published = none
    · simp [endStreams, departures, farewell, still, Reaction.andThen, hp, hs]
    · have hp' := Option.isSome_iff_ne_none.mpr hp
      rw [endStreams_published hp hs, unpublish_own]
      simp [departures, farewell, hp', hs]
  · by_cases hp : c.published = none
    · exact endStreams_effects_of_subscribed hp hs
    · exact endStreams_effects_of_both hp hs

theorem endStreams_reports (c : Channel) :
    reports c.endStreams.asked = c.departures.map (·, c.session) := by
  rw [Reaction.asked, endStreams_effects]
  cases c.departures with
  | nil => rfl
  | cons event rest =>
    have hd : reports ((c.dismantle event none).effects.filterMap Effect.record?) =
        [(event, c.session)] := by
      have ha := c.dismantle_asked event none
      rw [Reaction.asked] at ha
      rw [ha]
      split <;> rfl
    have hr : reports ((rest.map fun event =>
        Effect.spawn (.reportEnd event c.session none)).filterMap Effect.record?) =
          rest.map (·, c.session) := by
      simp [reports, List.filterMap_map, Function.comp_def, Effect.record?, Task.record,
        Record.report?]
    rw [farewell, List.filterMap_append]
    simp only [reports, List.filterMap_append] at hd hr ⊢
    rw [hd, hr]
    rfl

theorem endStreams_countP_closes (c : Channel) :
    c.endStreams.asked.countP Record.closes =
      if c.departures = [] then 0 else c.isOpen.toNat := by
  rw [Reaction.countP_closes_asked, Reaction.closings, endStreams_effects]
  cases c.departures with
  | nil => rfl
  | cons event rest =>
    have hr : (rest.map fun event => Effect.spawn (.reportEnd event c.session none)).countP
        Effect.closes = 0 := by
      simp [List.countP_eq_zero]
    rw [farewell, List.countP_append, hr]
    cases ho : c.isOpen <;> simp [dismantle, ho]

theorem mem_departures_iff {event : StreamEvent} : event ∈ c.departures ↔
    c.Active event ∧ (event = .unsubscribe →
      c.pending.subscribe = none ∧ (c.published ≠ none → c.session = "")) := by
  cases event with
  | unpublish => simp [departures, Active, Option.isSome_iff_ne_none]
  | unsubscribe =>
    simp [departures, Active, Option.isSome_iff_ne_none, Decidable.imp_iff_not_or, and_assoc]

theorem departures_nodup (c : Channel) : c.departures.Nodup := by
  unfold departures
  split <;> split <;> simp

theorem endStreams_departs_iff : c.Departs c.endStreams.asked ↔ (c.subscribed ≠ none →
    c.pending.subscribe = none ∧ (c.published ≠ none → c.session = "")) := by
  constructor
  · intro h hs
    have hr := h.reported .unsubscribe hs
    rw [endStreams_reports] at hr
    have hm : (StreamEvent.unsubscribe, c.session) ∈ c.departures.map (·, c.session) :=
      List.count_pos_iff.mp (by omega)
    obtain ⟨event, he, hp⟩ := List.mem_map.mp hm
    obtain rfl := (Prod.mk.inj hp).1
    exact (mem_departures_iff.mp he).2 rfl
  · intro hall
    have leaves {event : StreamEvent} (ha : c.Active event) : event ∈ c.departures := by
      refine mem_departures_iff.mpr ⟨ha, ?_⟩
      rintro rfl
      exact hall ha
    constructor
    · intro event ha
      have hn : (c.departures.map (·, c.session)).Nodup :=
        c.departures_nodup.map fun _ _ he => (Prod.mk.inj he).1
      rw [endStreams_reports]
      exact List.count_eq_one_of_mem hn (List.mem_map.mpr ⟨event, leaves ha, rfl⟩)
    · rintro ⟨event, ha⟩ ho
      have hd : c.departures ≠ [] := List.ne_nil_of_mem (leaves ha)
      rw [endStreams_countP_closes, if_neg hd, ho]
      rfl

end Channel

namespace Rehearsal

variable (config : ChannelConfig) (usual : Endpoint → Answer) (moves : List Move)
variable {past rest : List Turn} {turn : Turn}

/--
The drop of a channel is its last step, and what it asks for is called or still waits for its turn
like everything before. Every active stream is reported once, under the session of that moment, and
the connection is closed, if and only if no guard of the unsubscription stands in the way of a
subscribed stream: no subscription is under way, and the session has no identity that the end of a
publication would forget.
-/
theorem play_drop_departs_iff
    (he : (play config usual moves).history = past ++ turn :: rest)
    (hd : turn.stimulus = .drop) :
    rest = [] ∧
      (∀ p, CallClass p → (play config usual moves).due p =
        (asked past).countP p + turn.reaction.asked.countP p) ∧
      (turn.before.Departs turn.reaction.asked ↔ (turn.before.subscribed ≠ none →
        turn.before.pending.subscribe = none ∧
          (turn.before.published ≠ none → turn.before.session = ""))) := by
  have hr : turn.reaction = turn.before.endStreams := Turn.reaction_eq hd
  obtain ⟨rfl, _⟩ := play_dropsLast config usual moves past turn rest he hd
  refine ⟨rfl, fun p hp => ?_, ?_⟩
  · rw [play_recorded config usual moves p hp, he]
    simp [asked]
  · rw [hr]
    exact Channel.endStreams_departs_iff

/-- A publication that the server has accepted, until the channel is dropped. -/
def droppedPublication : Rehearsal :=
  play {} (fun _ => acknowledgement "session")
    [.command (.publish (some microphone) { name := "first" }),
      .turn, .turn, .turn,
      .command .drop,
      .turn, .turn, .turn]

theorem droppedPublication_departs : ∃ past turn,
    droppedPublication.history = past ++ turn :: [] ∧ turn.stimulus = .drop ∧
      turn.before.session = "session" ∧ turn.before.Departs turn.reaction.asked ∧
      reports droppedPublication.log = [(.unpublish, "session")] ∧
      droppedPublication.due Record.closes = 1 := by
  have he : droppedPublication.history =
      droppedPublication.history.take 4 ++ droppedPublication.history[4] :: [] := rfl
  obtain ⟨_, hc, hi⟩ := play_drop_departs_iff {} _ _ he rfl
  have hd := hi.mpr fun hn => absurd rfl hn
  have hp : (droppedPublication.history[4]).before.published ≠ none :=
    Option.some_ne_none microphone
  refine ⟨_, _, he, rfl, rfl, hd, rfl, ?_⟩
  rw [droppedPublication, hc _ callClass_closes, hd.closed ⟨.unpublish, hp⟩ rfl]
  rfl

/-- Both streams are set up when the channel is dropped. -/
def droppedPair : List Turn :=
  (play {} (fun _ => .error .closed) (settingUpPair ++ [.command .drop])).history

theorem dropped_subscription_unreported :
    ¬ ∀ (config : ChannelConfig) (usual : Endpoint → Answer) (moves : List Move)
        (past rest : List Turn) (turn : Turn),
      (play config usual moves).history = past ++ turn :: rest →
      turn.stimulus = .drop → turn.before.Departs turn.reaction.asked := by
  intro h
  have he : droppedPair = droppedPair.take 7 ++ droppedPair[7] :: [] := rfl
  have hs : (droppedPair[7]).before.Active .unsubscribe := by
    unfold Channel.Active
    decide
  have hr := (h _ _ _ _ _ _ he rfl).reported .unsubscribe hs
  have hn : reports (droppedPair[7]).reaction.asked = [(.unpublish, "second")] := rfl
  rw [hn] at hr
  simp at hr

end Rehearsal

end MediaSession
