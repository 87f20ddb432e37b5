import MediaSession.Proofs.Acceptance

namespace MediaSession

/-- What is kept for calls that wait: their continuations, and the signals that have come. -/
structure CallRegistry (α : Type) where
  pending : PendingCalls α := {}
  latch : SubscribeLatch := {}

/-- The success of each kind of call, and the failure that both kinds share. -/
inductive Slot where
  | success (kind : CallKind)
  | failure

inductive RegistryUse (α : Type) where
  | await (kind : CallKind) (call : α)
  | take (slot : Slot)
  | note (signal : Signal)
  /-- Forgets the signals that have come. -/
  | reset

/-- What a use puts into a slot. -/
def RegistryUse.given? (slot : Slot) : RegistryUse α → Option α
  | .await kind call =>
    match slot with
    | .success other => if other = kind then some call else none
    | .failure => some call
  | _ => none

def RegistryUse.signal? : RegistryUse α → Option Signal
  | .note signal => some signal
  | _ => none

section PendingCalls

variable {α : Type}

def PendingCalls.held (pending : PendingCalls α) : Slot → Option α
  | .success kind => pending.success kind
  | .failure => pending.failure

def PendingCalls.await (pending : PendingCalls α) (kind : CallKind) (call : α) : PendingCalls α :=
  match kind with
  | .publication => pending.awaitPublish call
  | .subscription => pending.awaitSubscribe call

def PendingCalls.take (pending : PendingCalls α) : Slot → Option α × PendingCalls α
  | .success .publication => pending.takePublish
  | .success .subscription => pending.takeSubscribe
  | .failure => pending.takeFailure

/-- A failure is there exactly with a success. -/
def PendingCalls.Paired (pending : PendingCalls α) : Prop :=
  pending.failure.isSome ↔ pending.publish.isSome ∨ pending.subscribe.isSome

@[simp] theorem PendingCalls.held_empty (slot : Slot) :
    (PendingCalls.empty : PendingCalls α).held slot = none := by
  rcases slot with ⟨_ | _⟩ | _ <;> rfl

theorem PendingCalls.held_await (pending : PendingCalls α) (kind : CallKind) (call : α)
    (slot : Slot) : (pending.await kind call).held slot =
      ((RegistryUse.await kind call).given? slot).or (pending.held slot) := by
  cases kind <;> rcases slot with ⟨_ | _⟩ | _ <;> rfl

theorem PendingCalls.paired_empty : (PendingCalls.empty : PendingCalls α).Paired := by
  simp [Paired, empty]

theorem PendingCalls.paired_await (pending : PendingCalls α) (kind : CallKind) (call : α) :
    (pending.await kind call).Paired := by
  cases kind <;> simp [Paired, await, awaitPublish, awaitSubscribe]

theorem PendingCalls.Paired.eq_empty {pending : PendingCalls α} (h : pending.Paired)
    (hf : pending.failure = none) : pending = .empty := by
  rcases pending with ⟨publish, subscribe, failure⟩
  simp only [Paired] at h hf
  subst hf
  cases publish <;> cases subscribe <;> simp_all [empty]

/-- Whoever finds a continuation empties the registry; whoever finds none changes nothing, since
there is no success without a failure. -/
theorem PendingCalls.Paired.take_eq {pending : PendingCalls α} (h : pending.Paired) (slot : Slot) :
    pending.take slot =
      (pending.held slot, if (pending.held slot).isSome then .empty else pending) := by
  cases slot with
  | success kind =>
    cases kind with
    | publication =>
      cases hp : pending.publish <;> simp [take, takePublish, held, success, hp]
    | subscription =>
      cases hs : pending.subscribe <;> simp [take, takeSubscribe, held, success, hs]
  | failure =>
    cases hf : pending.failure with
    | none => simp [take, takeFailure, held, h.eq_empty hf]
    | some call => simp [take, takeFailure, held, hf]

theorem PendingCalls.Paired.take {pending : PendingCalls α} (h : pending.Paired) (slot : Slot) :
    (pending.take slot).2.Paired := by
  rw [h.take_eq]
  dsimp only
  split
  · exact paired_empty
  · exact h

end PendingCalls

def SubscribeLatch.note (latch : SubscribeLatch) : Signal → Bool × SubscribeLatch
  | .media => latch.noteMedia
  | .server => latch.noteServer

theorem SubscribeLatch.note_eq (latch : SubscribeLatch) (signal : Signal) :
    latch.note signal =
      if latch.has signal.other then (true, {}) else (false, latch.noted signal) := by
  rw [← latch.fire_noted]
  cases signal <;> rfl

@[simp] theorem SubscribeLatch.has_empty (signal : Signal) :
    ({} : SubscribeLatch).has signal = false := by
  cases signal <;> rfl

/-- The signal has come, and since it has come the latch has neither fired nor been reset. -/
def Heard {α : Type} (signal : Signal) (past : List (RegistryUse α × Bool)) : Prop :=
  ∃ before entry after, past = before ++ entry :: after ∧ entry = (.note signal, false) ∧
    ∀ later ∈ after, later.1 ≠ .reset ∧ later.2 = false

theorem heard_snoc {α : Type} {signal : Signal} {past : List (RegistryUse α × Bool)}
    {entry : RegistryUse α × Bool} : Heard signal (past ++ [entry]) ↔
      entry = (.note signal, false) ∨ Heard signal past ∧ entry.1 ≠ .reset ∧ entry.2 = false :=
  exists_since_snoc (fun _ (entry : RegistryUse α × Bool) => entry = (.note signal, false))
    (fun later => later.1 ≠ .reset ∧ later.2 = false) past entry

namespace CallRegistry

variable {α : Type}

def after (r : CallRegistry α) : RegistryUse α → CallRegistry α
  | .await kind call => { r with pending := r.pending.await kind call }
  | .take slot => { r with pending := (r.pending.take slot).2 }
  | .note signal => { r with latch := (r.latch.note signal).2 }
  | .reset => { r with latch := {} }

/-- Whether a use is told that both signals are there. -/
def fires (r : CallRegistry α) : RegistryUse α → Bool
  | .note signal => (r.latch.note signal).1
  | _ => false

/-- The uses one after the other, each with what it is told. -/
def transcript (r : CallRegistry α) : List (RegistryUse α) → List (RegistryUse α × Bool)
  | [] => []
  | use :: rest => (use, r.fires use) :: (r.after use).transcript rest

/-- A new registry after these uses. -/
def now (uses : List (RegistryUse α)) : CallRegistry α := uses.foldl after {}

theorem now_snoc (uses : List (RegistryUse α)) (use : RegistryUse α) :
    now (uses ++ [use]) = (now uses).after use :=
  List.foldl_concat ..

theorem transcript_snoc (r : CallRegistry α) (uses : List (RegistryUse α))
    (use : RegistryUse α) : r.transcript (uses ++ [use]) =
      r.transcript uses ++ [(use, (uses.foldl after r).fires use)] := by
  induction uses generalizing r with
  | nil => rfl
  | cons first rest ih => exact congrArg ((first, r.fires first) :: ·) (ih (r.after first))

theorem held_of_held_after {r : CallRegistry α} (h : r.pending.Paired) {use : RegistryUse α}
    {slot : Slot} {call : α} (hs : (r.after use).pending.held slot = some call) :
    (use.given? slot).or (r.pending.held slot) = some call := by
  cases use with
  | await kind other => rwa [← PendingCalls.held_await]
  | take other =>
    simp only [after, h.take_eq] at hs
    split at hs
    · simp at hs
    · exact hs
  | note signal => exact hs
  | reset => exact hs

theorem paired_after {r : CallRegistry α} (h : r.pending.Paired) (use : RegistryUse α) :
    (r.after use).pending.Paired := by
  cases use with
  | await kind call => exact r.pending.paired_await kind call
  | take slot => exact h.take slot
  | note signal => exact h
  | reset => exact h

@[simp] theorem fires_note (r : CallRegistry α) (signal : Signal) :
    r.fires (.note signal) = r.latch.has signal.other := by
  rw [fires, SubscribeLatch.note_eq]
  split
  next ho => exact ho.symm
  next ho => exact (Bool.eq_false_iff.mpr ho).symm

@[simp] theorem latch_after_note (r : CallRegistry α) (signal : Signal) :
    (r.after (.note signal)).latch =
      if r.latch.has signal.other then {} else r.latch.noted signal := by
  rw [after, SubscribeLatch.note_eq]
  split <;> rfl

theorem fires_iff (r : CallRegistry α) (use : RegistryUse α) : r.fires use = true ↔
    ∃ signal, use = .note signal ∧ r.latch.has signal.other = true := by
  cases use with
  | note signal => simp
  | _ => simp [fires]

theorem has_after (r : CallRegistry α) (use : RegistryUse α) (signal : Signal) :
    (r.after use).latch.has signal = true ↔ (use, r.fires use) = (.note signal, false) ∨
      r.latch.has signal = true ∧ use ≠ .reset ∧ r.fires use = false := by
  cases use with
  | note other =>
    cases ho : r.latch.has other.other with
    | true => simp [ho]
    | false =>
      simp only [ho, fires_note, latch_after_note, Bool.false_eq_true, if_false,
        SubscribeLatch.has_noted, Bool.or_eq_true, decide_eq_true_eq, Prod.mk.injEq,
        RegistryUse.note.injEq, ne_eq, reduceCtorEq, not_false_eq_true, and_true]
      exact or_congr_left eq_comm
  | _ => simp [after, fires]

/-- A firing is made up for by a signal that has come before it, or comes with it. -/
theorem spends (r : CallRegistry α) (use : RegistryUse α) (signal : Signal) :
    (r.fires use).toNat + ((r.after use).latch.has signal).toNat ≤
      (r.latch.has signal).toNat + use.signal?.toList.count signal := by
  cases use with
  | note other =>
    cases ho : r.latch.has other.other with
    | true =>
      rcases other.eq_or_eq_other signal with rfl | rfl
      · simp [ho, RegistryUse.signal?]
      · simp [ho]
    | false =>
      by_cases hs : signal = other
      · simp [ho, hs, RegistryUse.signal?]
      · simp [ho, hs]
  | _ => simp [fires, after]

/-- What a registry holds after these uses of a new one. -/
structure Reflects (r : CallRegistry α) (uses : List (RegistryUse α)) : Prop where
  paired : r.pending.Paired
  held : ∀ slot call, r.pending.held slot = some call →
    (uses.filterMap (RegistryUse.given? slot)).getLast? = some call
  has : ∀ signal, r.latch.has signal = true ↔ Heard signal (transcript {} uses)
  /-- A flag that is up stands for a firing that is still to come. -/
  fired : ∀ signal, (transcript {} uses).countP Prod.snd + (r.latch.has signal).toNat ≤
    (uses.filterMap RegistryUse.signal?).count signal

theorem Reflects.start : Reflects ({} : CallRegistry α) [] := by
  have hn (signal : Signal) : ¬ Heard signal ([] : List (RegistryUse α × Bool)) := by
    rintro ⟨before, entry, after, he, _⟩
    simp at he
  refine ⟨PendingCalls.paired_empty, fun slot call hs => ?_, fun signal => ?_, fun signal => ?_⟩
  · have he : (PendingCalls.empty : PendingCalls α).held slot = some call := hs
    simp at he
  · simp [transcript, hn]
  · simp [transcript]

theorem Reflects.snoc {uses : List (RegistryUse α)} (h : (now uses).Reflects uses)
    (use : RegistryUse α) : ((now uses).after use).Reflects (uses ++ [use]) := by
  have ht : transcript {} (uses ++ [use]) =
      transcript {} uses ++ [(use, (now uses).fires use)] := transcript_snoc {} uses use
  refine ⟨paired_after h.paired use, fun slot call hs => ?_, fun signal => ?_, fun signal => ?_⟩
  · have hor := held_of_held_after h.paired hs
    rw [List.filterMap_append, List.getLast?_append]
    cases hg : use.given? slot with
    | some new => simpa [hg] using hor
    | none =>
      have hold := h.held slot call (by simpa [hg] using hor)
      simp [hg, hold]
  · rw [has_after, ht, heard_snoc, h.has]
  · have hs := (now uses).spends use signal
    have hold := h.fired signal
    have hf : [(use, (now uses).fires use)].countP Prod.snd = ((now uses).fires use).toNat := by
      cases (now uses).fires use <;> rfl
    have hc : [use].filterMap RegistryUse.signal? = use.signal?.toList := by
      cases hu : use.signal? <;> simp [hu]
    rw [ht, List.countP_append, hf, List.filterMap_append, List.count_append, hc]
    omega

theorem now_reflects (uses : List (RegistryUse α)) : (now uses).Reflects uses := by
  induction uses using List.reverseRecOn with
  | nil => exact .start
  | append_singleton uses use ih =>
    rw [now_snoc]
    exact ih.snoc use

/--
Whatever is done to a new registry: a failure is held exactly with a success, and each slot that is
not empty holds what it was given last. A call that is to wait fills the success slot of its kind
and the failure slot. A take finds what the slot holds. It leaves all slots empty if it has found a
continuation, and everything as it was if it has found none. A signal fires the latch exactly if the
other one has come since the last reset and the last firing, so there are no more firings than
signals of either kind.
-/
theorem now_uses (uses : List (RegistryUse α)) :
    ((now uses).pending.failure.isSome ↔
      (now uses).pending.publish.isSome ∨ (now uses).pending.subscribe.isSome) ∧
    (∀ slot call, (now uses).pending.held slot = some call →
      (uses.filterMap (RegistryUse.given? slot)).getLast? = some call) ∧
    (∀ kind call,
      ((now uses).after (.await kind call)).pending.held (.success kind) = some call ∧
      ((now uses).after (.await kind call)).pending.held .failure = some call ∧
      ∀ other, other ≠ kind → ((now uses).after (.await kind call)).pending.held (.success other) =
        (now uses).pending.held (.success other)) ∧
    (∀ slot, ((now uses).pending.take slot).1 = (now uses).pending.held slot ∧
      (∀ call, ((now uses).pending.take slot).1 = some call →
        ∀ other, ((now uses).pending.take slot).2.held other = none) ∧
      (((now uses).pending.take slot).1 = none →
        ((now uses).pending.take slot).2 = (now uses).pending)) ∧
    (∀ use, (now uses).fires use = true ↔
      ∃ signal, use = .note signal ∧ Heard signal.other (transcript {} uses)) ∧
    ∀ signal, (transcript {} uses).countP Prod.snd ≤
      (uses.filterMap RegistryUse.signal?).count signal := by
  have h := now_reflects uses
  refine ⟨h.paired, h.held, fun kind call => ?_, fun slot => ?_, fun use => ?_, fun signal => ?_⟩
  · simp only [after, PendingCalls.held_await, RegistryUse.given?]
    exact ⟨by simp, by simp, fun other ho => by simp [ho]⟩
  · rw [h.paired.take_eq slot]
    refine ⟨rfl, fun call hs other => ?_, fun hn => ?_⟩
    · have hs : (now uses).pending.held slot = some call := hs
      simp [hs]
    · have hn : (now uses).pending.held slot = none := hn
      simp [hn]
  · rw [fires_iff]
    exact exists_congr fun signal => and_congr_right fun _ => h.has signal.other
  · have hf := h.fired signal
    omega

example : (transcript {} [.note .media, .note .server, .note .server, .reset, .note .media] :
    List (RegistryUse String × Bool)).map Prod.snd = [false, true, false, false, false] := rfl

/-- A publication waits, then a subscription, and the media has come. -/
def twoAwaited : List (RegistryUse String) :=
  [.await .publication "first", .note .media, .await .subscription "second"]

theorem twoAwaited_held :
    (now twoAwaited).pending = ⟨some "first", some "second", some "second"⟩ ∧
      ((now twoAwaited).pending.take (.success .publication)).1 = some "first" ∧
      (∀ slot, ((now twoAwaited).pending.take (.success .publication)).2.held slot = none) ∧
      (now twoAwaited).fires (.note .server) = true ∧
      ((now twoAwaited).after (.await .publication "third")).pending.held .failure =
        some "third" ∧
      ((now twoAwaited).after (.await .publication "third")).pending.held
        (.success .subscription) = some "second" := by
  obtain ⟨_, _, hw, ht, hf, _⟩ := now_uses twoAwaited
  obtain ⟨_, hempty, _⟩ := ht (.success .publication)
  obtain ⟨_, hfailure, hother⟩ := hw .publication "third"
  have hheard : Heard Signal.server.other (transcript {} twoAwaited) :=
    ⟨[(.await .publication "first", false)], _, [(.await .subscription "second", false)],
      rfl, rfl, by simp⟩
  exact ⟨rfl, rfl, hempty "first" rfl, (hf _).mpr ⟨.server, rfl, hheard⟩, hfailure,
    hother .subscription (by decide)⟩

end CallRegistry

theorem Turn.paired_after {turn : Turn} (h : turn.before.pending.Paired) :
    turn.after.pending.Paired := by
  have hsame (hp : turn.after.pending = turn.before.pending) : turn.after.pending.Paired := hp ▸ h
  have hempty (hp : turn.after.pending = .empty) : turn.after.pending.Paired :=
    hp ▸ PendingCalls.paired_empty
  cases turn.settles with
  | keeps hk => exact hsame hk.pending
  | fails hk => exact hempty hk.leaves.pending
  | @publishes _ call _ _ _ hp =>
    have ha : turn.after.pending = turn.before.pending.await .publication call := hp
    exact ha ▸ turn.before.pending.paired_await .publication call
  | @subscribes _ _ call _ _ _ _ hp =>
    have ha : turn.after.pending = turn.before.pending.await .subscription call := hp
    exact ha ▸ turn.before.pending.paired_await .subscription call
  | completes _ _ hp => exact hempty hp
  | notes _ _ _ hp => exact hsame hp
  | joins _ _ _ hp => exact hempty hp

/-- At every moment of a run a failure waits exactly with the success of some call. -/
theorem Rehearsal.play_paired (config : ChannelConfig) (usual : Endpoint → Answer)
    (moves : List Move) {c : Channel} (hc : (play config usual moves).channel = some c) :
    c.pending.Paired := by
  have h := play_chronicle config usual moves
  rw [h.present c hc]
  exact Course.induction (P := fun _ c => c.pending.Paired) PendingCalls.paired_empty
    (fun _ _ => Turn.paired_after) h.course

end MediaSession
