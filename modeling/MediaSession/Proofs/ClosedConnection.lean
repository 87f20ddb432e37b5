import MediaSession.Proofs.EngineUse
import MediaSession.Proofs.LateAcknowledgement

namespace MediaSession

/-- Whether the engine is called by a task of its own, and not within a step. -/
def EngineCall.isDeferred : EngineCall → Bool
  | .create _ _ => true
  | .setLocal _ => true
  | .setRemote _ => true
  | .statistics => true
  | _ => false

/-- The call that a step makes on the engine itself, if that is what has been recorded. -/
def Record.immediate? : Record → Option EngineCall
  | .engine call => if call.isDeferred then none else some call
  | _ => none

theorem Task.immediate?_record (task : Task) : task.record.immediate? = none := by
  cases task <;> rfl

/-- The calls on the engine that steps have made themselves, in order. -/
def immediate (log : List Record) : List EngineCall := log.filterMap Record.immediate?

theorem immediate_append (log more : List Record) :
    immediate (log ++ more) = immediate log ++ immediate more :=
  List.filterMap_append

theorem mem_immediate {log : List Record} {call : EngineCall} :
    call ∈ immediate log ↔ .engine call ∈ log ∧ call.isDeferred = false := by
  constructor
  · intro hm
    obtain ⟨record, hr, hc⟩ := List.mem_filterMap.mp hm
    cases record with
    | engine other =>
      cases hd : other.isDeferred with
      | false =>
        obtain rfl : other = call := by simpa [Record.immediate?, hd] using hc
        exact ⟨hr, hd⟩
      | true => simp [Record.immediate?, hd] at hc
    | _ => cases hc
  · rintro ⟨hr, hd⟩
    exact List.mem_filterMap.mpr ⟨_, hr, by simp [Record.immediate?, hd]⟩

theorem count_close_immediate (log : List Record) :
    (immediate log).count .close = log.countP Record.closes := by
  rw [immediate, List.count, List.countP_filterMap]
  refine List.countP_congr fun record _ => ?_
  rcases record with _ | _ | _ | _ | call | _
  case engine => cases call <;> simp [Record.immediate?, EngineCall.isDeferred, Record.closes]
  all_goals simp [Record.immediate?, Record.closes]

/-- A class of calls on the engine, its closing left out. -/
def EngineClass (p : Record → Bool) : Prop :=
  ∀ record, p record = true → ∃ call, record = .engine call ∧ call ≠ .close

theorem EngineClass.callClass {p : Record → Bool} (hp : EngineClass p) : CallClass p := by
  intro record hr
  obtain ⟨call, rfl, _⟩ := hp record hr
  rfl

theorem EngineClass.close_eq_false {p : Record → Bool} (hp : EngineClass p) :
    p (.engine .close) = false := by
  cases hc : p (.engine .close) with
  | false => rfl
  | true =>
    obtain ⟨call, he, hn⟩ := hp _ hc
    exact absurd (Record.engine.inj he).symm hn

theorem Reaction.Calm.countP_asked {reaction : Reaction} (h : reaction.Calm) {p : Record → Bool}
    (hp : EngineClass p) : reaction.asked.countP p = 0 := by
  refine List.countP_eq_zero.mpr fun record hr hc => ?_
  obtain ⟨call, rfl, hn⟩ := hp record hc
  exact hn (h.eq_close hr)

/-- A closed connection stays closed. -/
theorem Course.isOpen_eq_false {config : ChannelConfig} {past since : List Turn}
    (h : Course config (past ++ since)) (hc : (Channel.now config past).isOpen = false) :
    (Channel.now config (past ++ since)).isOpen = false := by
  induction since using List.reverseRecOn with
  | nil => simpa using hc
  | append_singleton since turn ih =>
    rw [← List.append_assoc] at h ⊢
    rw [Channel.now_snoc]
    exact Channel.isOpen_meet_of_closed (h.before ▸ ih h.left)

/-- The step that closes the connection. -/
structure Turn.Closes (turn : Turn) : Prop where
  closings : turn.reaction.closings = 1
  before : turn.before.isOpen = true
  after : turn.after.isOpen = false
  calm : turn.reaction.Calm

theorem Turn.Closes.of_pos {turn : Turn} (h : 0 < turn.reaction.closings) : turn.Closes := by
  have hc : turn.reaction.closings + turn.after.isOpen.toNat = turn.before.isOpen.toNat :=
    (turn.before.meet_spends turn.stimulus).connection
  have hb := turn.before.isOpen.toNat_le
  have ho : turn.before.isOpen = true := by
    rw [← Bool.toNat_eq_one]
    omega
  have ha : turn.after.isOpen = false := by
    rw [← Bool.toNat_eq_zero]
    omega
  refine ⟨by omega, ho, ha, ?_⟩
  rcases Channel.meet_engine ha with hm | ⟨hn, _⟩
  · exact hm
  · exact absurd (ho.symm.trans hn) (by decide)

theorem Turn.Closes.immediate_asked {turn : Turn} (h : turn.Closes) :
    immediate turn.reaction.asked = [.close] := by
  have hall : ∀ call ∈ immediate turn.reaction.asked, call = .close :=
    fun _ hm => h.calm.eq_close (mem_immediate.mp hm).1
  have hn := count_close_immediate turn.reaction.asked
  rw [Reaction.countP_closes_asked, h.closings] at hn
  rw [List.eq_replicate_of_mem hall, List.count_replicate_self] at hn
  rw [List.eq_replicate_of_mem hall, hn]
  rfl

namespace Rehearsal

/-- What a step itself asks of the engine is done within the step. -/
def Prompt (r : Rehearsal) : Prop := immediate r.log = immediate (asked r.history)

theorem perform_immediate (r : Rehearsal) (effect : Effect) :
    immediate (r.perform effect).log =
      immediate r.log ++ (effect.record?.bind Record.immediate?).toList := by
  cases effect with
  | spawn task => simp [perform, Effect.record?, task.immediate?_record]
  | proceed task => simp [perform, Effect.record?, task.immediate?_record]
  | engine call =>
    have hl : (r.perform (.engine call)).log = r.log ++ [.engine call] := by
      simp only [perform, callEngine]
      split <;> rfl
    rw [hl, immediate_append]
    cases h : Record.immediate? (.engine call) <;> simp [immediate, Effect.record?, h]
  | _ => simp [perform, post, send, Effect.record?]

theorem Prompt.meet {r : Rehearsal} (h : Prompt r) (turn : Turn) : Prompt (r.meet turn) := by
  have hl := (foldl_perform_trace (fun _ => True) (immediate ·.log)
    (fun r effect _ => ⟨trivial, perform_immediate r effect⟩) turn.reaction.effects
    { r with channel := some turn.after, history := r.history ++ [turn] } trivial).2
  have ha : immediate (asked (r.history ++ [turn])) = immediate (asked r.history) ++
      turn.reaction.effects.filterMap fun effect => effect.record?.bind Record.immediate? := by
    simp [asked, Reaction.asked, immediate, List.filterMap_filterMap]
  unfold Prompt
  rw [meet_history, ha]
  exact hl.trans (congrArg (· ++ _) h)

theorem Prompt.note {r r' : Rehearsal} (h : Prompt r) (hh : r'.history = r.history)
    {record : Record} (hl : r'.log = r.log ++ [record]) (hn : record.immediate? = none) :
    Prompt r' := by
  have hi : immediate [record] = [] := by simp [immediate, hn]
  unfold Prompt at h ⊢
  rw [hh, hl, immediate_append, hi, List.append_nil, h]

theorem Prompt.change {r r' : Rehearsal} (h : Prompt r) (hr : Change r r') : Prompt r' := by
  cases hr with
  | call caller _ _ => exact Prompt.meet (r := { r with callers := r.callers ++ [caller] }) h _
  | event _ _ _ _ => exact h.meet _
  | @drop c _ =>
    have hm : Prompt (r.meet ⟨c, .drop⟩) := h.meet _
    exact hm
  | @resume c task answer rest _ _ => exact Prompt.meet (r := { r with runQueue := rest }) h _
  | @hold task rest _ => exact h.note rfl rfl task.immediate?_record
  | @start task rest answer _ => exact h.note rfl rfl task.immediate?_record
  | notify _ _ => exact h.note rfl rfl rfl
  | handOver _ _ => exact h.note rfl rfl rfl
  | block _ _ => exact h.note rfl rfl rfl
  | _ => exact h

variable (config : ChannelConfig) (usual : Endpoint → Answer) (moves : List Move)
variable {before after : List Record}

theorem play_prompt : Prompt (play config usual moves) :=
  play_induction (P := Prompt) rfl (fun _ _ => Prompt.change) moves

theorem play_closing (he : (play config usual moves).log = before ++ .engine .close :: after) :
    ∃ past closing since, (play config usual moves).history = past ++ closing :: since ∧
      closing.Closes := by
  have hl := play_log_le config usual moves callClass_closes
  have hc : 0 < (play config usual moves).log.countP Record.closes :=
    List.countP_pos_iff.mpr ⟨.engine .close, by simp [he], rfl⟩
  obtain ⟨record, hm, hr⟩ := List.countP_pos_iff.mp (Nat.lt_of_lt_of_le hc hl)
  obtain ⟨closing, ht, ha⟩ := List.mem_flatMap.mp hm
  obtain ⟨past, since, hh⟩ := List.append_of_mem ht
  refine ⟨past, closing, since, hh, Turn.Closes.of_pos ?_⟩
  rw [← Reaction.countP_closes_asked]
  exact List.countP_pos_iff.mpr ⟨record, ha, hr⟩

variable {config usual moves}
variable {past since : List Turn} {closing : Turn}

theorem Prompt.after_closing {r : Rehearsal} (h : Prompt r) (hl : r.log.countP Record.closes ≤ 1)
    (he : r.log = before ++ .engine .close :: after) (hh : r.history = past ++ closing :: since)
    (hc : closing.Closes) : immediate after = immediate (asked since) := by
  have hlog : immediate r.log = immediate before ++ .close :: immediate after := by
    rw [he, immediate_append]
    rfl
  have hasked : immediate (asked r.history) =
      immediate (asked past) ++ .close :: immediate (asked since) := by
    rw [hh, ← List.singleton_append (l := immediate (asked since)), ← hc.immediate_asked,
      ← immediate_append, ← immediate_append]
    simp [asked]
  -- The log has one closing, so both lists split at the same place.
  have hn := count_close_immediate r.log
  rw [hlog, List.count_append, List.count_cons_self] at hn
  have hb : EngineCall.close ∉ immediate before := List.count_eq_zero.mp (by omega)
  have ha : EngineCall.close ∉ immediate after := List.count_eq_zero.mp (by omega)
  have hs := hlog.symm.trans (Eq.trans h hasked)
  exact ((List.append_cons_inj_of_notMem hb ha).mp hs).2.2

theorem play_since_closed (hh : (play config usual moves).history = past ++ closing :: since)
    (hc : closing.Closes) {earlier later : List Turn} {turn : Turn}
    (hs : since = earlier ++ turn :: later) :
    turn.before.isOpen = false ∧ turn.after.isOpen = false := by
  have hcourse := (play_chronicle config usual moves).course
  have hl : past ++ closing :: since = ((past ++ [closing]) ++ earlier) ++ turn :: later := by
    simp [hs]
  rw [hh, hl] at hcourse
  have hn : (Channel.now config (past ++ [closing])).isOpen = false := by
    rw [Channel.now_snoc]
    exact hc.after
  have hb : turn.before.isOpen = false := hcourse.before ▸ hcourse.left.isOpen_eq_false hn
  exact ⟨hb, Channel.isOpen_meet_of_closed hb⟩

/-- Once the connection is closed a step calls the engine only to go on with a task that was
under way, or that an earlier one of these steps has handed out. -/
theorem play_continues (hh : (play config usual moves).history = past ++ closing :: since)
    (hc : closing.Closes) {earlier later : List Turn} {turn : Turn}
    (hs : since = earlier ++ turn :: later) {call : EngineCall}
    (ha : .engine call ∈ turn.reaction.asked) :
    ∃ task, turn.stimulus.Continues task call ∧
      (Unanswered past task ∨ ∃ asking ∈ earlier, task ∈ asking.reaction.handed) := by
  obtain ⟨hb, hn⟩ := play_since_closed hh hc hs
  rcases Channel.meet_engine hn with hm | ⟨_, task, hnot, hall⟩
  · obtain rfl := hm.eq_close ha
    have hpos : 0 < turn.reaction.closings := by
      rw [← Reaction.countP_closes_asked]
      exact List.countP_pos_iff.mpr ⟨_, ha, rfl⟩
    exact absurd ((Turn.Closes.of_pos hpos).before.symm.trans hb) (by decide)
  · have hk := hall call ha
    refine ⟨task, hk, ?_⟩
    by_cases he : ∃ asking ∈ earlier, task ∈ asking.reaction.handed
    · exact Or.inr he
    · have hsince : ∀ asking ∈ closing :: earlier, task ∉ asking.reaction.handed := by
        intro asking hm ht
        rcases List.mem_cons.mp hm with rfl | hm
        · exact absurd (hk.uses.symm.trans (hc.calm.handed ht)) (by decide)
        · exact he ⟨asking, hm, ht⟩
      have hh' : (play config usual moves).history =
          past ++ ((closing :: earlier) ++ turn :: later) := by simp [hh, hs]
      exact Or.inl (play_unanswered_since config usual moves hh' hk.task hsince hnot)

variable (config usual moves)

/--
Once the connection of the engine is closed no step asks anything new of it: a step calls the
engine only to go on with a task that was under way, or that has been handed out in this way. What
the engine is called for afterwards is either done by a task, or it is such a continuation; and each
call, before or after the closing, has been asked for by a step before it or by a continuation.
-/
theorem play_after_closing
    (he : (play config usual moves).log = before ++ .engine .close :: after) :
    ∃ past closing since, (play config usual moves).history = past ++ closing :: since ∧
      closing.reaction.closings = 1 ∧
      (∀ earlier turn later call, since = earlier ++ turn :: later →
        .engine call ∈ turn.reaction.asked → ∃ task, turn.stimulus.Continues task call ∧
          (Unanswered past task ∨ ∃ asking ∈ earlier, task ∈ asking.reaction.handed)) ∧
      (∀ call, .engine call ∈ after → call.isDeferred = true ∨ .engine call ∈ asked since) ∧
      ∀ p, EngineClass p →
        (before ++ after).countP p ≤ (asked past).countP p + (asked since).countP p := by
  obtain ⟨past, closing, since, hh, hc⟩ := play_closing config usual moves he
  refine ⟨past, closing, since, hh, hc.closings, fun _ _ _ _ hs ha => play_continues hh hc hs ha,
    fun call hm => ?_, fun p hp => ?_⟩
  · cases hd : call.isDeferred with
    | true => exact Or.inl rfl
    | false =>
      have hi := (play_prompt config usual moves).after_closing (play_closes_le config usual moves)
        he hh hc
      exact Or.inr (mem_immediate.mp (hi ▸ mem_immediate.mpr ⟨hm, hd⟩)).1
  · have hl := play_log_le config usual moves hp.callClass
    rw [he, hh] at hl
    simp only [asked, List.flatMap_append, List.flatMap_cons, List.countP_append,
      List.countP_cons, hp.close_eq_false, hc.calm.countP_asked hp] at hl ⊢
    simpa using hl

/-- A publication that ends while a description is to be made and the connection measured. -/
def endedEarly : Rehearsal :=
  play { audio := [{ maxBitrateKbps := 64 }] } (fun _ => acknowledgement "session")
    [.command (.publish (some microphone) { name := "first" }),
      .turn,
      .command (.statistics { name := "second" }),
      .command (.unpublish none none),
      .turn, .turn, .turn, .turn, .turn]

theorem endedEarly_log :
    endedEarly.log = endedEarly.log.take 2 ++ .engine .close :: endedEarly.log.drop 3 := rfl

theorem endedEarly_continues : ∃ before after,
    endedEarly.log = before ++ .engine .close :: after ∧
      .engine (.setMaxBitrate .audio 64000) ∈ after ∧
      ∃ past closing since, endedEarly.history = past ++ closing :: since ∧
        ∃ turn ∈ since, ∃ task, turn.stimulus.Continues task (.setMaxBitrate .audio 64000) := by
  have hg : (endedEarly.log.drop 3)[2]? = some (.engine (.setMaxBitrate .audio 64000)) := rfl
  have hm := List.mem_of_getElem? hg
  obtain ⟨past, closing, since, hh, _, hk, hd, _⟩ := play_after_closing _ _ _ endedEarly_log
  refine ⟨_, _, endedEarly_log, hm, past, closing, since, hh, ?_⟩
  rcases hd _ hm with hd | ha
  · cases hd
  · obtain ⟨turn, ht, ha⟩ := List.mem_flatMap.mp ha
    obtain ⟨earlier, later, hs⟩ := List.append_of_mem ht
    obtain ⟨task, hc, _⟩ := hk earlier turn later _ hs ha
    exact ⟨turn, ht, task, hc⟩

/-- A description that was under way is made and applied although the connection is closed. -/
theorem connection_used_after_closing :
    ¬ ∀ (config : ChannelConfig) (usual : Endpoint → Answer) (moves : List Move)
        (before after : List Record),
      (play config usual moves).log = before ++ .engine .close :: after →
      ∀ call, call ≠ .close → .engine call ∉ after := by
  intro h
  have hg : (endedEarly.log.drop 3)[0]? =
      some (.engine (.create .offer { useRtpMux := true })) := rfl
  exact h _ _ _ _ _ endedEarly_log _ (by decide) (List.mem_of_getElem? hg)

end Rehearsal

end MediaSession
