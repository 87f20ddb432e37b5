import MediaSession.Proofs.Changes
import Mathlib.Data.List.Induction
import Mathlib.Data.List.Nodup

namespace MediaSession

/-- The state of a channel that has made these steps. -/
def Channel.now (config : ChannelConfig) (past : List Turn) : Channel :=
  (past.getLast?.map Turn.after).getD { config }

@[simp] theorem Channel.now_snoc (config : ChannelConfig) (past : List Turn) (turn : Turn) :
    now config (past ++ [turn]) = turn.after := by
  simp [now]

theorem Turn.reaction_eq {turn : Turn} {stimulus : Stimulus} (h : turn.stimulus = stimulus) :
    turn.reaction = turn.before.meet stimulus :=
  h ▸ rfl

/-- What stands in a list with one more entry is that entry, or stands in the list itself. -/
theorem snoc_eq_append_cons {α : Type} {xs before after : List α} {x a : α}
    (h : xs ++ [x] = before ++ a :: after) :
    before = xs ∧ a = x ∧ after = [] ∨
      ∃ between, after = between ++ [x] ∧ xs = before ++ a :: between := by
  rcases after.eq_nil_or_concat with rfl | ⟨between, last, rfl⟩
  · obtain ⟨rfl, ha⟩ := List.append_inj' h rfl
    exact Or.inl ⟨rfl, (List.singleton_inj.mp ha).symm, rfl⟩
  · have he : xs ++ [x] = (before ++ a :: between) ++ [last] := by simpa using h
    obtain ⟨hxs, hx⟩ := List.append_inj' he rfl
    obtain rfl := List.singleton_inj.mp hx
    exact Or.inr ⟨between, List.concat_eq_append, hxs⟩

/-- Something counts as long as no later entry takes it back: one entry more. -/
theorem exists_since_snoc {α : Type} (P : List α → α → Prop) (R : α → Prop) (xs : List α) (x : α) :
    (∃ before a after, xs ++ [x] = before ++ a :: after ∧ P before a ∧ ∀ y ∈ after, R y) ↔
      P xs x ∨
        (∃ before a after, xs = before ++ a :: after ∧ P before a ∧ ∀ y ∈ after, R y) ∧ R x := by
  constructor
  · rintro ⟨before, a, after, he, hp, hr⟩
    rcases snoc_eq_append_cons he with ⟨rfl, rfl, _⟩ | ⟨between, rfl, hx⟩
    · exact Or.inl hp
    · have hbetween : ∀ y ∈ between, R y := fun y hy => hr y (List.mem_append_left _ hy)
      exact Or.inr ⟨⟨before, a, between, hx, hp, hbetween⟩, hr x (by simp)⟩
  · rintro (hp | ⟨⟨before, a, after, rfl, hp, hr⟩, hx⟩)
    · exact ⟨xs, x, [], rfl, hp, by simp⟩
    · refine ⟨before, a, after ++ [x], by simp, hp, fun y hy => ?_⟩
      rcases List.mem_append.mp hy with hy | hy
      · exact hr y hy
      · rwa [List.mem_singleton.mp hy]

/-- What stands in two lists one after the other, and not in the second one, stands in the first. -/
theorem append_eq_append_cons {α : Type} {xs more before after : List α} {a : α}
    (h : xs ++ more = before ++ a :: after) (hn : a ∉ more) :
    ∃ between, after = between ++ more ∧ xs = before ++ a :: between := by
  rcases List.append_eq_append_iff.mp h with ⟨skipped, _, hm⟩ | ⟨between, hx, hm⟩
  · exact absurd (by simp [hm]) hn
  · cases between with
    | nil =>
      have hm : a :: after = more := hm
      exact absurd (by simp [← hm]) hn
    | cons first between =>
      obtain ⟨rfl, ha⟩ := List.cons.inj hm
      exact ⟨between, ha, hx⟩

/-- Each step begins in the state in which the one before it has ended. -/
def Course (config : ChannelConfig) (history : List Turn) : Prop :=
  ∀ past turn rest, history = past ++ turn :: rest → turn.before = Channel.now config past

theorem Course.nil (config : ChannelConfig) : Course config [] := by
  intro past turn rest he
  simp at he

theorem Course.before {config : ChannelConfig} {past rest : List Turn} {turn : Turn}
    (h : Course config (past ++ turn :: rest)) : turn.before = Channel.now config past :=
  h past turn rest rfl

theorem Course.left {config : ChannelConfig} {past rest : List Turn}
    (h : Course config (past ++ rest)) : Course config past := by
  intro earlier turn between he
  exact h earlier turn (between ++ rest) (by simp [he])

theorem Course.snoc {config : ChannelConfig} {past : List Turn} {turn : Turn}
    (h : Course config past) (hb : turn.before = Channel.now config past) :
    Course config (past ++ [turn]) := by
  intro earlier other rest he
  rcases snoc_eq_append_cons he with ⟨rfl, rfl, _⟩ | ⟨between, _, hp⟩
  · exact hb
  · exact h earlier other between hp

/-- What a new channel has and every step keeps holds of the course as a whole. -/
theorem Course.induction {config : ChannelConfig} {P : List Turn → Channel → Prop}
    (hstart : P [] { config })
    (hstep : ∀ past turn, P past turn.before → P (past ++ [turn]) turn.after) {past : List Turn}
    (h : Course config past) : P past (Channel.now config past) := by
  induction past using List.reverseRecOn with
  | nil => exact hstart
  | append_singleton past turn ih =>
    rw [Channel.now_snoc]
    have hb := h.before
    exact hstep past turn (hb ▸ ih h.left)

namespace Rehearsal

theorem foldl_perform_frame {α : Type} (view : Rehearsal → α)
    (h : ∀ r effect, view (r.perform effect) = view r) (effects : List Effect) (r : Rehearsal) :
    view (effects.foldl perform r) = view r := by
  induction effects generalizing r with
  | nil => rfl
  | cons effect rest ih =>
    rw [List.foldl_cons, ih, h]

/-- A trace that each effect extends at its end, as long as some invariant lasts. -/
theorem foldl_perform_trace {α : Type} (P : Rehearsal → Prop) (trace : Rehearsal → List α)
    {view : Effect → Option α}
    (h : ∀ r effect, P r →
      P (r.perform effect) ∧ trace (r.perform effect) = trace r ++ (view effect).toList)
    (effects : List Effect) (r : Rehearsal) (hr : P r) :
    P (effects.foldl perform r) ∧
      trace (effects.foldl perform r) = trace r ++ effects.filterMap view := by
  induction effects generalizing r with
  | nil => exact ⟨hr, by simp⟩
  | cons effect rest ih =>
    obtain ⟨hp, ht⟩ := h r effect hr
    obtain ⟨hp', ht'⟩ := ih _ hp
    refine ⟨hp', ?_⟩
    rw [List.foldl_cons, ht', ht, List.filterMap_cons]
    cases view effect <;> simp

theorem callEngine_frame {α : Type} (view : Rehearsal → α)
    (hn : ∀ r record, view (note r record) = view r)
    (hs : ∀ (r : Rehearsal) script, view { r with script } = view r) (r : Rehearsal)
    (call : EngineCall) : view (r.callEngine call) = view r := by
  unfold callEngine
  split
  next endpoint _ => exact (hs _ _).trans (hn _ _)
  next => exact hn _ _

@[simp] theorem meet_channel (r : Rehearsal) (turn : Turn) :
    (r.meet turn).channel = some turn.after := by
  refine foldl_perform_frame channel (fun r effect => ?_) _ _
  cases effect with
  | engine call => exact callEngine_frame channel (fun _ _ => rfl) (fun _ _ => rfl) r call
  | _ => rfl

@[simp] theorem meet_history (r : Rehearsal) (turn : Turn) :
    (r.meet turn).history = r.history ++ [turn] := by
  refine foldl_perform_frame history (fun r effect => ?_) _ _
  cases effect with
  | engine call => exact callEngine_frame history (fun _ _ => rfl) (fun _ _ => rfl) r call
  | _ => rfl

@[simp] theorem meet_callers (r : Rehearsal) (turn : Turn) :
    (r.meet turn).callers = r.callers := by
  refine foldl_perform_frame callers (fun r effect => ?_) _ _
  cases effect with
  | engine call => exact callEngine_frame callers (fun _ _ => rfl) (fun _ _ => rfl) r call
  | _ => rfl

/-- The history is the course of the channel, and its calls are numbered as they were made. -/
structure Chronicle (config : ChannelConfig) (r : Rehearsal) : Prop where
  course : Course config r.history
  present : ∀ c, r.channel = some c → c = Channel.now config r.history
  calls : r.history.filterMap (·.stimulus.call?) = List.range r.callers.length

theorem Chronicle.meet {config : ChannelConfig} {r : Rehearsal} {c : Channel} {stimulus : Stimulus}
    (h : Chronicle config r) (hc : r.channel = some c) (hs : stimulus.call? = none) :
    Chronicle config (r.meet ⟨c, stimulus⟩) := by
  refine ⟨?_, ?_, ?_⟩
  · simpa using h.course.snoc (h.present c hc)
  · simp
  · simpa [hs] using h.calls

theorem Chronicle.change {config : ChannelConfig} {r r' : Rehearsal} (h : Chronicle config r)
    (hr : Change r r') : Chronicle config r' := by
  cases hr with
  | call caller hc hs =>
    refine ⟨?_, ?_, ?_⟩
    · simpa using h.course.snoc (h.present _ hc)
    · simp
    · simpa [hs, List.range_succ] using h.calls
  | event hc hs _ _ => exact h.meet hc hs
  | drop hc => exact ⟨(h.meet hc rfl).course, by simp, (h.meet hc rfl).calls⟩
  | resume hq hc =>
    exact Chronicle.meet (r := { r with runQueue := _ }) ⟨h.course, h.present, h.calls⟩ hc rfl
  | _ => exact ⟨h.course, h.present, h.calls⟩

theorem play_chronicle (config : ChannelConfig) (usual : Endpoint → Answer) (moves : List Move) :
    Chronicle config (play config usual moves) := by
  refine play_induction ⟨Course.nil config, ?_, rfl⟩ (fun _ _ => Chronicle.change) moves
  intro c hc
  exact (Option.some.inj hc).symm

theorem Change.history {r r' : Rehearsal} (h : Change r r') :
    r'.history = r.history ∨ ∃ turn, r'.history = r.history ++ [turn] := by
  cases h with
  | call _ _ _ => exact Or.inr ⟨_, meet_history _ _⟩
  | event _ _ _ _ => exact Or.inr ⟨_, meet_history _ _⟩
  | drop _ => exact Or.inr ⟨_, meet_history _ _⟩
  | resume _ _ => exact Or.inr ⟨_, meet_history _ _⟩
  | _ => exact Or.inl rfl

/-- Without a channel no step is made, and there is none again. -/
theorem Change.gone {r r' : Rehearsal} (h : Change r r') (hc : r.channel = none) :
    r'.channel = none ∧ r'.history = r.history := by
  cases h with
  | call _ hs _ => exact absurd (hs.symm.trans hc) (Option.some_ne_none _)
  | event hs _ _ _ => exact absurd (hs.symm.trans hc) (Option.some_ne_none _)
  | drop hs => exact absurd (hs.symm.trans hc) (Option.some_ne_none _)
  | resume _ hs => exact absurd (hs.symm.trans hc) (Option.some_ne_none _)
  | _ => exact ⟨hc, rfl⟩

/-- What an invariant says of the history has been true at every earlier moment of the run. -/
theorem play_past {P : Rehearsal → Prop} {H : List Turn → Prop} {config : ChannelConfig}
    {usual : Endpoint → Answer} (start : P (opening config usual))
    (step : ∀ r r', P r → Change r r' → P r') (hH : ∀ r, P r → H r.history) (moves : List Move)
    {past rest : List Turn} (he : (play config usual moves).history = past ++ rest) : H past := by
  refine (play_induction (P := fun r => P r ∧ ∀ past rest, r.history = past ++ rest → H past)
    ⟨start, ?_⟩ ?_ moves).2 past rest he
  · intro past rest he
    obtain ⟨rfl, _⟩ := List.append_eq_nil_iff.mp he.symm
    exact hH _ start
  · intro r r' ⟨hr, hpast⟩ hc
    have hr' := step r r' hr hc
    refine ⟨hr', fun past rest he => ?_⟩
    rcases hc.history with hh | ⟨turn, hh⟩
    · exact hpast past rest (hh ▸ he)
    · rcases rest.eq_nil_or_concat with rfl | ⟨between, last, rfl⟩
      · rw [List.append_nil] at he
        exact he ▸ hH _ hr'
      · have hp : r.history ++ [turn] = (past ++ between) ++ [last] := by
          simpa [hh] using he
        exact hpast past between (List.append_inj' hp rfl).1

/-- No two steps of a run make the same call. -/
theorem Chronicle.call_fresh {config : ChannelConfig} {r : Rehearsal} (h : Chronicle config r)
    {past rest : List Turn} {turn : Turn} {call : CallId} (he : r.history = past ++ turn :: rest)
    (ht : turn.stimulus.call? = some call) {other : Turn} (ho : other ∈ past ++ rest) :
    other.stimulus.call? ≠ some call := by
  intro hc
  have hn : (r.history.filterMap (·.stimulus.call?)).Nodup := h.calls ▸ List.nodup_range
  rw [he] at hn
  simp only [List.filterMap_append, List.filterMap_cons, ht] at hn
  have hm : call ∈ past.filterMap (·.stimulus.call?) ++ rest.filterMap (·.stimulus.call?) := by
    rw [← List.filterMap_append]
    exact List.mem_filterMap.mpr ⟨other, ho, hc⟩
  exact (List.nodup_middle.mp hn).notMem hm

end Rehearsal

end MediaSession
