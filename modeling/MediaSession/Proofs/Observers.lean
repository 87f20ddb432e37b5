import MediaSession.Proofs.FailureNotices

namespace MediaSession

/-- The observer has been registered, and not removed since. -/
def Registered (past : List Turn) (observer : ObserverId) : Prop :=
  ∃ before turn after, past = before ++ turn :: after ∧
    turn.stimulus = .addObserver observer ∧
    ∀ later ∈ after, later.stimulus ≠ .removeObserver observer

/-- The step at this place is the registration that has taken effect: the observer was not
registered before, and has not been removed since. -/
def Enters (past : List Turn) (place : Nat) (observer : ObserverId) : Prop :=
  ∃ before turn after, past = before ++ turn :: after ∧
    (before.length = place ∧ turn.stimulus = .addObserver observer ∧
      ¬ Registered before observer) ∧
    ∀ later ∈ after, later.stimulus ≠ .removeObserver observer

/-- The list holds each registered observer once, in the order of the registrations that have
taken effect. -/
structure Lists (past : List Turn) (observers : List ObserverId) : Prop where
  nodup : observers.Nodup
  members : ∀ observer, observer ∈ observers ↔ Registered past observer
  entered : ∀ observer ∈ observers, ∃ place, Enters past place observer
  order : observers.Pairwise fun a b => ∀ i j, Enters past i a → Enters past j b → i < j

section Registration

variable {past : List Turn} {turn : Turn} {place : Nat} {observer : ObserverId}

theorem registered_snoc : Registered (past ++ [turn]) observer ↔
    turn.stimulus = .addObserver observer ∨
      Registered past observer ∧ turn.stimulus ≠ .removeObserver observer :=
  exists_since_snoc (fun _ (turn : Turn) => turn.stimulus = .addObserver observer)
    (fun later => later.stimulus ≠ .removeObserver observer) past turn

theorem enters_snoc : Enters (past ++ [turn]) place observer ↔
    (past.length = place ∧ turn.stimulus = .addObserver observer ∧ ¬ Registered past observer) ∨
      Enters past place observer ∧ turn.stimulus ≠ .removeObserver observer :=
  exists_since_snoc
    (fun before (turn : Turn) => before.length = place ∧ turn.stimulus = .addObserver observer ∧
      ¬ Registered before observer)
    (fun later => later.stimulus ≠ .removeObserver observer) past turn

theorem Enters.lt (h : Enters past place observer) : place < past.length := by
  obtain ⟨before, turn, after, rfl, ⟨rfl, _⟩, _⟩ := h
  simp

theorem Enters.registered (h : Enters past place observer) : Registered past observer := by
  obtain ⟨before, turn, after, he, ⟨_, ha, _⟩, hr⟩ := h
  exact ⟨before, turn, after, he, ha, hr⟩

/-- Whoever is registered owes it to a registration that has taken effect. -/
theorem Registered.enters (h : Registered past observer) :
    ∃ place, Enters past place observer := by
  induction past using List.reverseRecOn with
  | nil =>
    obtain ⟨before, turn, after, he, _⟩ := h
    simp at he
  | append_singleton past turn ih =>
    by_cases hp : Registered past observer
    · obtain ⟨place, he⟩ := ih hp
      have hk : turn.stimulus ≠ .removeObserver observer := by
        rcases registered_snoc.mp h with ha | ⟨_, hk⟩
        · simp [ha]
        · exact hk
      exact ⟨place, enters_snoc.mpr (Or.inr ⟨he, hk⟩)⟩
    · have ha := (registered_snoc.mp h).resolve_right fun hr => hp hr.1
      exact ⟨past.length, enters_snoc.mpr (Or.inl ⟨rfl, ha, hp⟩)⟩

/-- A registration of someone who is registered already takes no effect. -/
theorem Enters.of_registered (h : Enters (past ++ [turn]) place observer)
    (hr : Registered past observer) : Enters past place observer := by
  rcases enters_snoc.mp h with ⟨_, _, hn⟩ | ⟨he, _⟩
  · exact absurd hr hn
  · exact he

theorem Stimulus.mem_enrolled {stimulus : Stimulus} {observers : List ObserverId} :
    observer ∈ stimulus.enrolled observers ↔ stimulus = .addObserver observer ∨
      observer ∈ observers ∧ stimulus ≠ .removeObserver observer := by
  cases stimulus with
  | addObserver other =>
    simp only [enrolled, addObserver.injEq, ne_eq, reduceCtorEq, not_false_eq_true, and_true]
    split
    next hm =>
      constructor
      · exact Or.inr
      · rintro (rfl | ho)
        · exact hm
        · exact ho
    next => rw [List.mem_append, List.mem_singleton, or_comm, eq_comm]
  | removeObserver other =>
    have hne : observer ≠ other ↔ Stimulus.removeObserver other ≠ .removeObserver observer :=
      ⟨fun hn he => hn (removeObserver.inj he).symm, fun hn he => hn (he ▸ rfl)⟩
    simp only [enrolled, List.mem_filter, decide_eq_true_eq, hne, reduceCtorEq, false_or]
  | _ => simp [enrolled]

theorem mem_enrolled_iff : observer ∈ enrolled past ↔ Registered past observer := by
  induction past using List.reverseRecOn with
  | nil => simp [enrolled, Registered]
  | append_singleton past turn ih =>
    rw [enrolled_snoc, Stimulus.mem_enrolled, registered_snoc, ih]

theorem enrolled_order (past : List Turn) :
    (enrolled past).Pairwise fun a b => ∀ i j, Enters past i a → Enters past j b → i < j := by
  induction past using List.reverseRecOn with
  | nil => exact List.Pairwise.nil
  | append_singleton past turn ih =>
    have hold : (enrolled past).Pairwise fun a b =>
        ∀ i j, Enters (past ++ [turn]) i a → Enters (past ++ [turn]) j b → i < j := by
      refine ih.imp_of_mem fun ha hb hab i j hi hj => ?_
      exact hab i j (hi.of_registered (mem_enrolled_iff.mp ha))
        (hj.of_registered (mem_enrolled_iff.mp hb))
    rw [enrolled_snoc]
    cases turn.stimulus with
    | addObserver new =>
      simp only [Stimulus.enrolled]
      split
      next => exact hold
      next hn =>
        -- The newcomer has no earlier registration that has taken effect.
        refine List.pairwise_append.mpr ⟨hold, List.pairwise_singleton _ _, ?_⟩
        intro a ha b hb i j hi hj
        obtain rfl := List.mem_singleton.mp hb
        have hlt := (hi.of_registered (mem_enrolled_iff.mp ha)).lt
        rcases enters_snoc.mp hj with ⟨rfl, _⟩ | ⟨he, _⟩
        · exact hlt
        · exact absurd (mem_enrolled_iff.mpr he.registered) hn
    | removeObserver gone => exact hold.filter _
    | _ => exact hold

theorem enrolled_lists (past : List Turn) : Lists past (enrolled past) :=
  ⟨enrolled_nodup past, fun _ => mem_enrolled_iff, fun _ ho => (mem_enrolled_iff.mp ho).enters,
    enrolled_order past⟩

end Registration

/-- Whether a notice tells an observer of an error. -/
def Notice.isAlarm : Notice → Bool
  | .streamFailed _ _ _ => true
  | _ => false

/-- The notices that tell the observers of errors. -/
def alarms (notices : List Notice) : List Notice := notices.filter Notice.isAlarm

theorem Reaction.alarms_eq (reaction : Reaction) :
    reaction.alarms = MediaSession.alarms reaction.posted := by
  rw [MediaSession.alarms, posted, List.filter_filterMap]
  refine List.filterMap_congr fun effect _ => ?_
  cases effect with
  | post notice => cases notice <;> rfl
  | _ => rfl

theorem Channel.activeStream_eq (c : Channel) : c.activeStream =
    (c.published.map .published).or (c.subscribed.map .subscribed) := by
  cases hp : c.published <;> simp [activeStream, hp]

/-- The errors of a step for the observers: one to each who is registered when the step
begins, in the order of the list. Each names the stream that is active then, the published one
before the subscribed one, although the step may end both. -/
def Turn.warnings (turn : Turn) : List Notice :=
  (turn.before.failure? turn.stimulus).toList.flatMap fun cause =>
    turn.before.observers.map fun observer =>
      .streamFailed observer
        ((turn.before.published.map .published).or (turn.before.subscribed.map .subscribed))
        cause.error

theorem Turn.alarms_posted (turn : Turn) : alarms turn.reaction.posted = turn.warnings := by
  rw [← Reaction.alarms_eq, reaction, Channel.meet_alarms, warnings, Channel.activeStream_eq]

theorem alarms_posted (history : List Turn) :
    alarms (posted history) = history.flatMap Turn.warnings := by
  rw [alarms, posted, List.filter_flatMap]
  exact congrArg (history.flatMap ·) (funext Turn.alarms_posted)

namespace Rehearsal

variable (config : ChannelConfig) (usual : Endpoint → Answer) (moves : List Move)

/--
Before and after every step of a run the observers are listed once each, in the order of the
registrations that have taken effect. A registration anew changes nothing, and a removal takes out
exactly that observer. A step posts its errors and no others. What the observers have been told of
errors, and are still to be told, is what the steps have posted, one step after the other, whoever
has come or gone since.
-/
theorem play_observers_told :
    (∀ past turn rest, (play config usual moves).history = past ++ turn :: rest →
      Lists past turn.before.observers ∧
      Lists (past ++ [turn]) turn.after.observers ∧
      alarms turn.reaction.posted = turn.warnings ∧
      ∀ observer,
        (turn.stimulus = .addObserver observer → observer ∈ turn.before.observers →
          turn.reaction = turn.before.still) ∧
        (turn.stimulus = .removeObserver observer → turn.reaction =
          Channel.still
            { turn.before with observers := turn.before.observers.erase observer })) ∧
    (∀ c, (play config usual moves).channel = some c →
      Lists (play config usual moves).history c.observers) ∧
    alarms (delivered (play config usual moves).log ++ (play config usual moves).notices.waiting) =
      (play config usual moves).history.flatMap Turn.warnings := by
  have hk := play_chronicle config usual moves
  refine ⟨fun past turn rest he => ?_, fun c hc => ?_, ?_⟩
  · have hcourse : Course config (past ++ turn :: rest) := he ▸ hk.course
    have hb : turn.before.observers = enrolled past := hcourse.before ▸ hcourse.left.observers
    have ha : turn.after.observers = enrolled (past ++ [turn]) := by
      rw [enrolled_snoc, ← hb]
      exact turn.before.meet_observers turn.stimulus
    refine ⟨hb ▸ enrolled_lists past, ha ▸ enrolled_lists (past ++ [turn]), turn.alarms_posted,
      fun observer => ?_⟩
    refine ⟨fun hs hm => ?_, fun hs => ?_⟩
    · rw [turn.reaction_eq hs, Channel.meet, Channel.addObserver, if_pos hm]
    · have hn : turn.before.observers.Nodup := hb ▸ enrolled_nodup past
      have hf : turn.before.observers.filter (· ≠ observer) =
          turn.before.observers.erase observer := by
        rw [hn.erase_eq_filter]
        exact List.filter_congr fun other _ => by simp [bne, beq_eq_decide]
      rw [turn.reaction_eq hs, Channel.meet, Channel.removeObserver, hf]
  · have hc' := hk.present c hc
    exact hc' ▸ hk.course.observers ▸ enrolled_lists _
  · rw [(play_announces config usual moves).order, alarms_posted]

/-- Two observers of a publication: the one who has left and come back is told second, the one who
leaves right after the loss is told all the same. -/
def changingWatch : List Move :=
  [.command (.addObserver "first" []), .command (.addObserver "second" []),
    .command (.addObserver "first" []), .command (.removeObserver "first"),
    .command (.addObserver "first" []),
    .command (.publish (some microphone) { name := "publication" }),
    .turn, .turn, .turn, .turn, .turn,
    .command (.connectionChanged .connected),
    .command (.connectionChanged .failed),
    .command (.removeObserver "second")]

def changedWatch : Rehearsal := play {} (fun _ => acknowledgement "session") changingWatch

theorem changingWatch_told :
    Lists (changedWatch.history.take 10) ["second", "first"] ∧
      Lists changedWatch.history ["first"] ∧
      alarms (delivered changedWatch.log ++ changedWatch.notices.waiting) =
        ["second", "first"].map fun observer =>
          .streamFailed observer (some (.published microphone))
            Cause.connectivityLost.error := by
  obtain ⟨hs, hc, ha⟩ :=
    play_observers_told {} (fun _ => acknowledgement "session") changingWatch
  have he : changedWatch.history =
      changedWatch.history.take 10 ++ changedWatch.history[10] ::
        changedWatch.history.drop 11 := rfl
  have hcurrent : changedWatch.channel.map Channel.observers = some ["first"] := rfl
  obtain ⟨c, hp, ho⟩ := Option.map_eq_some_iff.mp hcurrent
  exact ⟨(hs _ _ _ he).1, ho ▸ hc c hp, ha.trans rfl⟩

end Rehearsal

end MediaSession
