import MediaSession.Proofs.ClosedConnection
import MediaSession.Proofs.ConnectivityLoss
import MediaSession.Proofs.StreamEndings

namespace MediaSession

/-- Where a given entry of the lists that are strung together comes from. -/
theorem flatMap_eq_append_cons {α β : Type} {f : α → List β} {xs : List α} {ys zs : List β}
    {b : β} (h : xs.flatMap f = ys ++ b :: zs) :
    ∃ before x after told untold, xs = before ++ x :: after ∧ f x = told ++ b :: untold ∧
      ys = before.flatMap f ++ told := by
  induction xs generalizing ys with
  | nil => simp at h
  | cons x xs ih =>
    rw [List.flatMap_cons] at h
    have later {as : List β} (hy : ys = f x ++ as) (hx : xs.flatMap f = as ++ b :: zs) :
        ∃ before x' after told untold, x :: xs = before ++ x' :: after ∧
          f x' = told ++ b :: untold ∧ ys = before.flatMap f ++ told := by
      obtain ⟨before, x', after, told, untold, rfl, hf, rfl⟩ := ih hx
      exact ⟨x :: before, x', after, told, untold, rfl, hf, by simp [hy]⟩
    rcases List.append_eq_append_iff.mp h with ⟨as, hy, hx⟩ | ⟨bs, hf, hb⟩
    · exact later hy hx
    · cases bs with
      | nil =>
        rw [List.append_nil] at hf
        have hy : ys = f x ++ [] := by rw [hf, List.append_nil]
        exact later hy hb.symm
      | cons first bs =>
        obtain ⟨rfl, _⟩ := List.cons.inj hb
        exact ⟨[], x, xs, ys, bs, rfl, hf, rfl⟩

namespace Channel

variable (c : Channel)

@[simp] theorem dismantle_alarms (event : StreamEvent) (call : Option CallId) :
    (c.dismantle event call).alarms = [] := by
  cases ho : c.isOpen <;> simp [Reaction.alarms, dismantle, ho]

@[simp] theorem unpublish_alarms (session : String) (call : Option CallId) :
    (c.unpublish session call).alarms = [] := by
  unfold unpublish
  split
  · exact (c.refuse_ordinary call _).alarms
  · rw [Reaction.alarms_andThen, dismantle_alarms]
    rfl

@[simp] theorem unsubscribe_alarms (session : String) (call : Option CallId) :
    (c.unsubscribe session call).alarms = [] := by
  unfold unsubscribe
  split
  · exact (c.refuse_ordinary call _).alarms
  · split
    · exact (c.refuse_ordinary call _).alarms
    · rw [Reaction.alarms_andThen, dismantle_alarms]
      rfl

@[simp] theorem endStreams_alarms : c.endStreams.alarms = [] := by
  unfold endStreams
  rw [Reaction.alarms_andThen]
  split <;> split <;> simp [(still_ordinary _).alarms]

@[simp] theorem streamFailed_alarms (cause : Cause) : (c.streamFailed cause).alarms =
    c.observers.map (.streamFailed · c.activeStream cause.error) := by
  unfold streamFailed
  rw [Reaction.alarms_andThen, endStreams_alarms, List.append_nil, Reaction.alarms,
    List.filterMap_map]
  exact congrFun List.filterMap_eq_map c.observers

@[simp] theorem descriptionFailed_alarms (cause : Cause) : (c.descriptionFailed cause).alarms =
    c.observers.map (.streamFailed · c.activeStream cause.error) := by
  unfold descriptionFailed
  rw [Reaction.alarms_andThen, (c.failPending_ordinary _).alarms, streamFailed_alarms]
  rfl

/--
The observers are told of a failure of the streams and of nothing else: each of them once, in their
order, of the stream that was active before the step.
-/
theorem meet_alarms (stimulus : Stimulus) :
    (c.meet stimulus).alarms = (c.failure? stimulus).toList.flatMap
      fun cause => c.observers.map (.streamFailed · c.activeStream cause.error) := by
  have told (cause : Cause) : (some cause).toList.flatMap (fun cause =>
      c.observers.map (Notice.streamFailed · c.activeStream cause.error)) =
        c.observers.map (.streamFailed · c.activeStream cause.error) := List.append_nil _
  cases c.touches stimulus with
  | nothing hf ho => rw [hf, ho.alarms]; rfl
  | publication hf hm => rw [hf, hm, unpublish_alarms]; rfl
  | subscription hf hm => rw [hf, hm, unsubscribe_alarms]; rfl
  | active hf hm => rw [hf, hm, endStreams_alarms]; rfl
  | connectivity hf hs hm => rw [hf, hm, told, streamFailed_alarms]; rfl
  | description hf hs hm => rw [hf, hm, told, descriptionFailed_alarms]

theorem failure_of_alarm {stimulus : Stimulus} {observer : ObserverId}
    {stream : Option ActiveStream} {error : ChannelError}
    (h : .streamFailed observer stream error ∈ (c.meet stimulus).posted) :
    ∃ cause, c.failure? stimulus = some cause ∧ observer ∈ c.observers ∧
      stream = c.activeStream ∧ error = cause.error := by
  obtain ⟨effect, he, hn⟩ := List.mem_filterMap.mp h
  have ha : .streamFailed observer stream error ∈ (c.meet stimulus).alarms := by
    refine List.mem_filterMap.mpr ⟨effect, he, ?_⟩
    cases effect with
    | post notice =>
      obtain rfl := Option.some.inj hn
      rfl
    | _ => cases hn
  rw [meet_alarms] at ha
  obtain ⟨cause, hc, hm⟩ := List.mem_flatMap.mp ha
  obtain ⟨other, ho, hs⟩ := List.mem_map.mp hm
  obtain ⟨rfl, rfl, rfl⟩ := Notice.streamFailed.inj hs
  exact ⟨cause, Option.mem_toList.mp hc, ho, rfl, rfl⟩

/-- The teardown of whatever was active: the connection is closed and the session forgotten. -/
structure TornDown (c : Channel) (reaction : Reaction) : Prop where
  isOpen : reaction.channel.isOpen = false
  session : reaction.channel.session = ""
  published : reaction.channel.published = none
  subscribed : c.published = none → reaction.channel.subscribed = none
  closing : c.isOpen = true → .engine .close ∈ reaction.asked

variable {c}

theorem dismantle_closing (event : StreamEvent) (call : Option CallId) (ho : c.isOpen = true) :
    .engine .close ∈ (c.dismantle event call).asked := by
  rw [dismantle_asked, if_pos ho]
  simp

theorem unpublish_tornDown (hp : c.published ≠ none) :
    c.TornDown (c.unpublish c.session none) := by
  rw [unpublish_own]
  exact ⟨rfl, rfl, rfl, fun hn => absurd hn hp, fun ho => c.dismantle_closing _ none ho⟩

/-- Once the session is torn down, the end of a subscription takes nothing of that back. -/
theorem TornDown.andThen_unsubscribe {reaction : Reaction} (h : c.TornDown reaction)
    (hp : c.published ≠ none) (session : String) :
    c.TornDown (reaction.andThen (·.unsubscribe session none)) := by
  have hclosing (r : Channel → Reaction) (ho : c.isOpen = true) :
      .engine .close ∈ (reaction.andThen r).asked := by
    rw [Reaction.asked, Reaction.andThen, List.filterMap_append]
    exact List.mem_append_left _ (h.closing ho)
  by_cases hg : session ≠ reaction.channel.session ∨ reaction.channel.pending.subscribe ≠ none
  · refine ⟨?_, ?_, ?_, fun hn => absurd hn hp, hclosing _⟩ <;>
      rw [Reaction.andThen, unsubscribe_still hg]
    · exact h.isOpen
    · exact h.session
    · exact h.published
  · obtain ⟨hs, hq⟩ := not_or.mp hg
    obtain rfl := not_not.mp hs
    refine ⟨?_, ?_, ?_, fun hn => absurd hn hp, hclosing _⟩ <;>
      rw [Reaction.andThen, unsubscribe_own (not_not.mp hq)]
    · rfl
    · rfl
    · exact h.published

theorem activeStream_eq_none_iff :
    c.activeStream = none ↔ c.published = none ∧ c.subscribed = none := by
  cases hp : c.published <;> simp [activeStream, hp]

theorem endStreams_tornDown (ha : c.activeStream ≠ none)
    (h : ¬ (c.published = none ∧ c.pending.subscribe ≠ none)) : c.TornDown c.endStreams := by
  by_cases hp : c.published = none
  · have hs : c.subscribed ≠ none := fun hs => ha (activeStream_eq_none_iff.mpr ⟨hp, hs⟩)
    have hq : c.pending.subscribe = none := by
      by_contra hq
      exact h ⟨hp, hq⟩
    rw [endStreams_subscribed hp hs, unsubscribe_own hq]
    exact ⟨rfl, rfl, hp, fun _ => rfl, fun ho => c.dismantle_closing _ none ho⟩
  · have hu := unpublish_tornDown hp
    by_cases hs : c.subscribed = none
    · exact endStreams_published hp hs ▸ hu
    · rw [endStreams_both hp hs]
      exact hu.andThen_unsubscribe hp c.session

/-- A subscription that is still being set up is not ended. -/
theorem endStreams_still (hp : c.published = none) (hq : c.pending.subscribe ≠ none) :
    c.endStreams = c.still := by
  by_cases hs : c.subscribed = none
  · simp [endStreams, hp, hs, still, Reaction.andThen]
  · rw [endStreams_subscribed hp hs, unsubscribe_still (Or.inr hq)]

theorem streamFailed_tornDown (cause : Cause) (h : c.TornDown c.endStreams) :
    c.TornDown (c.streamFailed cause) :=
  ⟨h.isOpen, h.session, h.published, h.subscribed, streamFailed_asked c cause ▸ h.closing⟩

theorem descriptionFailed_tornDown (cause : Cause) (ha : c.activeStream ≠ none) :
    c.TornDown (c.descriptionFailed cause) := by
  -- The pending calls are given up first, so that no guard keeps the stream.
  have he : TornDown { c with pending := .empty } (endStreams { c with pending := .empty }) :=
    endStreams_tornDown ha fun hn => hn.2 rfl
  have hf := streamFailed_tornDown cause he
  refine ⟨hf.isOpen, hf.session, hf.published, hf.subscribed, fun ho => ?_⟩
  rw [descriptionFailed, Reaction.asked, Reaction.andThen, List.filterMap_append]
  exact List.mem_append_right _ (hf.closing ho)

/-- The one error that ends no stream: what is lost with the connectivity is a subscription that is
still being set up, and nothing else. -/
structure Exempts (c : Channel) (stimulus : Stimulus) : Prop where
  published : c.published = none
  pending : c.pending.subscribe ≠ none
  stimulus : stimulus = .connectionChanged .failed

theorem meet_tornDown {stimulus : Stimulus} (hf : c.failure? stimulus ≠ none)
    (ha : c.activeStream ≠ none) (h : ¬ c.Exempts stimulus) : c.TornDown (c.meet stimulus) := by
  cases c.touches stimulus with
  | connectivity _ hs hm =>
    have he : TornDown { c with isConnected := false }
        (endStreams { c with isConnected := false }) :=
      endStreams_tornDown ha fun ⟨hp, hq⟩ => h ⟨hp, hq, hs⟩
    have ht := streamFailed_tornDown .connectivityLost he
    rw [hm]
    exact ⟨ht.isOpen, ht.session, ht.published, ht.subscribed, ht.closing⟩
  | @description cause _ _ hm => exact hm ▸ descriptionFailed_tornDown cause ha
  | nothing hn => exact absurd hn hf
  | publication hn => exact absurd hn hf
  | subscription hn => exact absurd hn hf
  | active hn => exact absurd hn hf

theorem meet_exempt {stimulus : Stimulus} (hf : c.failure? stimulus ≠ none)
    (h : c.Exempts stimulus) : (c.meet stimulus).channel = { c with isConnected := false } := by
  cases c.touches stimulus with
  | connectivity _ _ hm =>
    have he : endStreams { c with isConnected := false } = still { c with isConnected := false } :=
      endStreams_still h.published h.pending
    rw [hm, streamFailed, Reaction.andThen, he]
    rfl
  | description _ hs => exact absurd h.stimulus hs
  | nothing hn => exact absurd hn hf
  | publication hn => exact absurd hn hf
  | subscription hn => exact absurd hn hf
  | active hn => exact absurd hn hf

end Channel

/-- Whether the step leaves the connection, the session and the active stream as they were. -/
structure Turn.Spares (turn : Turn) : Prop where
  isOpen : turn.after.isOpen = turn.before.isOpen
  session : turn.after.session = turn.before.session
  activeStream : turn.after.activeStream = turn.before.activeStream

theorem Channel.TornDown.not_spares {turn : Turn} (h : turn.before.TornDown turn.reaction)
    (ha : turn.before.activeStream ≠ none) : ¬ turn.Spares := by
  intro hk
  have hs := hk.activeStream
  have hn : turn.after.published = none := h.published
  cases hp : turn.before.published with
  | none =>
    have hs' : turn.after.subscribed = none := h.subscribed hp
    rw [activeStream_eq_none_iff.mpr ⟨hn, hs'⟩] at hs
    exact ha hs.symm
  | some stream =>
    cases hm : turn.after.subscribed <;>
      simp [Channel.activeStream, hn, hp, hm] at hs

theorem Turn.spares_iff {turn : Turn} (hf : turn.before.failure? turn.stimulus ≠ none)
    (ha : turn.before.activeStream ≠ none) :
    turn.Spares ↔ turn.before.Exempts turn.stimulus := by
  constructor
  · intro hk
    by_contra he
    exact (Channel.meet_tornDown hf ha he).not_spares ha hk
  · intro he
    have hm : turn.after = { turn.before with isConnected := false } := Channel.meet_exempt hf he
    refine ⟨?_, ?_, ?_⟩ <;> rw [hm]
    rfl

namespace Rehearsal

variable (config : ChannelConfig) (usual : Endpoint → Answer) (moves : List Move)

/-- The step that has posted the notice which is to be delivered next. -/
theorem play_posting {notice : Notice} {waiting : List Notice}
    (hn : (play config usual moves).notices.waiting = notice :: waiting) :
    ∃ past turn rest told untold, (play config usual moves).history = past ++ turn :: rest ∧
      turn.reaction.posted = told ++ notice :: untold ∧
      delivered (play config usual moves).log = posted past ++ told := by
  have ho := (play_announces config usual moves).order
  rw [hn] at ho
  exact flatMap_eq_append_cons ho.symm

/-- What a step has torn down stays so: the closing is on record, and nothing opens again. -/
theorem play_torn_down {past rest : List Turn} {turn : Turn}
    (he : (play config usual moves).history = past ++ turn :: rest)
    (ht : turn.before.TornDown turn.reaction) :
    (turn.before.isOpen = true → .engine .close ∈ (play config usual moves).log) ∧
      ∀ c, (play config usual moves).channel = some c → c.isOpen = false := by
  have hk := play_chronicle config usual moves
  refine ⟨fun ho => ?_, fun c hc => ?_⟩
  · have ha : .engine .close ∈ asked (play config usual moves).history := by
      refine List.mem_flatMap.mpr ⟨turn, ?_, ht.closing ho⟩
      simp [he]
    have hp : immediate (play config usual moves).log =
        immediate (asked (play config usual moves).history) := play_prompt config usual moves
    have hi : .close ∈ immediate (play config usual moves).log :=
      hp ▸ mem_immediate.mpr ⟨ha, rfl⟩
    exact (mem_immediate.mp hi).1
  · have hs : (play config usual moves).history = (past ++ [turn]) ++ rest := by simp [he]
    have hcourse : Course config ((past ++ [turn]) ++ rest) := hs ▸ hk.course
    rw [hk.present c hc, hs]
    refine hcourse.isOpen_eq_false ?_
    rw [Channel.now_snoc]
    exact ht.isOpen

/--
When an observer is told of an error with an active stream, the step of that error is over, and
with it the teardown that it causes: the connection has been closed, the session and the stream are
forgotten. The one error that leaves them as they were is a loss of the connectivity while the only
stream is a subscription whose success is pending; nothing is torn down on account of it.
-/
theorem play_observer_told_after_teardown {jobs : List Job} {waiting : List Notice}
    {observer : ObserverId} {stream : ActiveStream} {error : ChannelError}
    (hq : (play config usual moves).runQueue = .notices :: jobs)
    (hn : (play config usual moves).notices.waiting =
      .streamFailed observer (some stream) error :: waiting) :
    ∃ invoked : Rehearsal, (play config usual moves).tick =
        some (invoked.deliver (.streamFailed observer (some stream) error)) ∧
      ∃ past turn rest told untold cause, invoked.history = past ++ turn :: rest ∧
        turn.before.failure? turn.stimulus = some cause ∧ error = cause.error ∧
        turn.before.activeStream = some stream ∧ observer ∈ turn.before.observers ∧
        turn.reaction.posted = told ++ .streamFailed observer (some stream) error :: untold ∧
        delivered invoked.log = posted past ++ told ∧
        (turn.Spares ↔ turn.before.Exempts turn.stimulus) ∧
        (¬ turn.before.Exempts turn.stimulus → turn.before.TornDown turn.reaction ∧
          (turn.before.isOpen = true → .engine .close ∈ invoked.log) ∧
          ∀ c, invoked.channel = some c → c.isOpen = false) := by
  obtain ⟨past, turn, rest, told, untold, he, hp, hd⟩ := play_posting config usual moves hn
  refine ⟨{ play config usual moves with notices := { waiting, worker := .due } }, ?_, ?_⟩
  · simp only [tick, hq, hn]
  have hm : .streamFailed observer (some stream) error ∈ turn.reaction.posted := by simp [hp]
  obtain ⟨cause, hf, ho, hs, hr⟩ := turn.before.failure_of_alarm hm
  have ha : turn.before.activeStream ≠ none := hs ▸ Option.some_ne_none stream
  have hf' : turn.before.failure? turn.stimulus ≠ none := hf ▸ Option.some_ne_none cause
  refine ⟨past, turn, rest, told, untold, cause, he, hf, hr, hs.symm, ho, hp, hd,
    Turn.spares_iff hf' ha, fun hx => ?_⟩
  have ht : turn.before.TornDown turn.reaction := Channel.meet_tornDown hf' ha hx
  exact ⟨ht, play_torn_down config usual moves he ht⟩

/-- A publication that somebody watches, until the connectivity is lost. -/
def watchedLoss : Rehearsal :=
  play {} (fun _ => acknowledgement "session")
    [.command (.addObserver "watcher" []),
      .command (.publish (some microphone) { name := "first" }),
      .turn, .turn, .turn, .turn, .turn,
      .command (.connectionChanged .connected),
      .command (.connectionChanged .failed)]

theorem watchedLoss_told_after_teardown : ∃ invoked : Rehearsal,
    watchedLoss.tick = some (invoked.deliver
        (.streamFailed "watcher" (some (.published microphone)) Cause.connectivityLost.error)) ∧
      ∃ past turn rest, invoked.history = past ++ turn :: rest ∧
        turn.before.TornDown turn.reaction := by
  have hq : watchedLoss.runQueue =
      .notices :: [.start (.reportEnd .unpublish "session" none)] := rfl
  have hn : watchedLoss.notices.waiting =
      .streamFailed "watcher" (some (.published microphone)) Cause.connectivityLost.error ::
        [] := rfl
  obtain ⟨invoked, hi, past, turn, rest, _, _, _, he, _, _, hs, _, _, _, _, ht⟩ :=
    play_observer_told_after_teardown {} (fun _ => acknowledgement "session") _ hq hn
  refine ⟨invoked, hi, past, turn, rest, he, (ht fun hx => ?_).1⟩
  rw [Channel.activeStream, hx.published] at hs
  obtain ⟨_, _, hw⟩ := Option.map_eq_some_iff.mp hs
  cases hw

/-- The connection is closed and the session forgotten before the observer is told. -/
theorem observer_told_too_late :
    ¬ ∀ (config : ChannelConfig) (usual : Endpoint → Answer) (moves : List Move)
        (jobs : List Job) (waiting : List Notice) (observer : ObserverId) (stream : ActiveStream)
        (error : ChannelError) (past rest : List Turn) (turn : Turn) (told untold : List Notice),
      (play config usual moves).runQueue = .notices :: jobs →
      (play config usual moves).notices.waiting =
        .streamFailed observer (some stream) error :: waiting →
      (play config usual moves).history = past ++ turn :: rest →
      turn.reaction.posted = told ++ .streamFailed observer (some stream) error :: untold →
      delivered (play config usual moves).log = posted past ++ told →
      turn.Spares := by
  intro h
  have he : watchedLoss.history =
      watchedLoss.history.take 6 ++ watchedLoss.history[6] :: [] := rfl
  have hk : (watchedLoss.history[6]).Spares :=
    h {} (fun _ => acknowledgement "session") _ _ _ _ _ _ _ _ _ [] [] rfl rfl he rfl rfl
  exact absurd hk.session (by decide)

end Rehearsal

end MediaSession
