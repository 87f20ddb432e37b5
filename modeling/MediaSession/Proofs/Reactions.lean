import MediaSession.Channel.Stimulus

namespace MediaSession

namespace Channel

variable (c : Channel)

/-- The call for a description, if there is a connection for it. -/
@[simp] def creations (creation : Creation) : List Effect :=
  if c.isOpen then [.spawn (.create creation { useRtpMux := !c.config.iceUnbundle })] else []

theorem create_eq (creation : Creation) :
    c.create creation = { channel := c, effects := c.creations creation } := by
  unfold create creations
  split <;> rfl

/-- The renegotiation once a new path has been started. -/
def restarted : RenegotiationState :=
  if c.negotiation = .connected then c.renegotiation.advance .sent else c.renegotiation

theorem executeRestart_eq :
    c.executeRestart =
      { channel := { c with renegotiation := c.restarted }, effects := c.creations .offer } :=
  create_eq _ .offer

/-- All that a channel can do with a stimulus; a teardown is left to the functions it is made of. -/
inductive Reacts (c : Channel) : Stimulus → Reaction → Prop
  | refusesPublish {stream call cause} :
      c.Reacts (.publish stream call) (c.refuse (some call) cause)
  | publishes {stream media call} (hm : stream.media = some media) :
      c.Reacts (.publish (some stream) call)
        { channel :=
            { c with
              pending := c.pending.awaitPublish call
              published := some stream
              directions := { audio := .sendOnly, video := .sendOnly }
              negotiation := c.negotiation.advance .invitationSent }
          effects := [.spawn (.requestPublish (publishOptions stream media) media)] }
  | refusesSubscribe {stream options call cause} :
      c.Reacts (.subscribe stream options call) (c.refuse (some call) cause)
  | subscribes {stream options call kinds}
      (ha : options.allowed stream.settings stream.capabilities = true)
      (hb : c.pending.subscribe = none)
      (hk : kinds = if c.isOpen then wantedKinds stream options else []) :
      c.Reacts (.subscribe (some stream) options call)
        { channel :=
            { c with
              pending := c.pending.awaitSubscribe call
              latch := {}
              subscribed := some stream
              directions := { audio := .recvOnly, video := .recvOnly }
              negotiation := c.negotiation.advance .invitationSent }
          effects :=
            (kinds.map fun kind => .engine (.addTransceiver kind { direction := .recvOnly })) ++
              [.spawn (.requestSubscribe (subscribeRequest stream options) stream.id)] }
  | unpublishes {session call} :
      c.Reacts (.unpublish session call) (c.unpublish (session.getD c.session) call)
  | unsubscribes {session call} :
      c.Reacts (.unsubscribe session call) (c.unsubscribe (session.getD c.session) call)
  | drops : c.Reacts .drop c.endStreams
  | refusesControl {target operation call cause} :
      c.Reacts (.control target operation call) (c.refuse (some call) cause)
  | controls {target operation call} :
      c.Reacts (.control target operation call)
        { channel := c
          effects := [.spawn (.control c.published.isSome c.session target operation call)] }
  | refusesStatistics {call cause} : c.Reacts (.statistics call) (c.refuse (some call) cause)
  | measures {call} (ho : c.isOpen = true) :
      c.Reacts (.statistics call) { channel := c, effects := [.spawn (.statistics call)] }
  | measuresNothing {call} :
      c.Reacts (.statistics call)
        { channel := c, effects := [.post (.failed call CallError.closed.toChannelError)] }
  | creates {creation} :
      c.Reacts (.create creation) { channel := c, effects := c.creations creation }
  | restarts (hs : c.signaling.isStable = true) :
      c.Reacts .restartIce
        { channel := { c with renegotiation := c.restarted }, effects := c.creations .offer }
  | notesRestart (hs : c.signaling.isStable = false) :
      c.Reacts .restartIce { channel := { c with restartNoted := true } }
  | misreads {sdp} : c.Reacts (.applyRemote sdp) (c.failPending Cause.remoteDescription.error)
  | setsRemote {sdp description} :
      c.Reacts (.applyRemote sdp)
        { channel := c
          effects := if c.isOpen then [.spawn (.setRemote description)] else [] }
  | completes {call} (hb : c.pending.publish = some call) :
      c.Reacts (.receive (.text "success"))
        { channel := { c with pending := .empty }
          effects := [.post (.succeeded call c.session)] }
  | notesServer {call} (hb : c.pending.subscribe = some call)
      (ho : c.latch.mediaArrived = false) :
      c.Reacts (.receive (.text "success"))
        { channel := { c with latch := { c.latch with serverReady := true } } }
  | joinsServer {call} (hb : c.pending.subscribe = some call)
      (ho : c.latch.mediaArrived = true) :
      c.Reacts (.receive (.text "success"))
        { channel := { c with pending := .empty, latch := {} }
          effects := [.post (.succeeded call c.session)] }
  | expectsNothing (hb : c.pending.subscribe = none) :
      c.Reacts (.receive (.text "success")) c.still
  | fails {message cause} (hm : message ≠ .text "success") :
      c.Reacts (.receive message) (c.failPending (Cause.error cause))
  | setsAnswer {message description} (hm : message ≠ .text "success") :
      c.Reacts (.receive message)
        { channel := c
          effects := if c.isOpen then [.spawn (.setRemote description)] else [] }
  | ignores {message} (hm : message ≠ .text "success") : c.Reacts (.receive message) c.still
  | enrols {observer} (ho : observer ∉ c.observers) :
      c.Reacts (.addObserver observer)
        { channel := { c with observers := c.observers ++ [observer] } }
  | knows {observer} (ho : observer ∈ c.observers) : c.Reacts (.addObserver observer) c.still
  | dismisses {observer} :
      c.Reacts (.removeObserver observer)
        { channel := { c with observers := c.observers.filter (· ≠ observer) } }
  | suspends {state} (hs : state.isStable = false) :
      c.Reacts (.signalingChanged state)
        { channel :=
            { c with signaling := state, candidates := { c.candidates with stable := false } } }
  | releases {state} (hs : state.isStable = true) (hn : c.restartNoted = false) :
      c.Reacts (.signalingChanged state)
        { channel := { c with signaling := state, restartNoted := false, candidates := {} }
          effects := c.candidates.waiting.map .send }
  | restartsLate {state} (hs : state.isStable = true) (hn : c.restartNoted = true) :
      c.Reacts (.signalingChanged state)
        { channel :=
            { c with
              signaling := state
              restartNoted := false
              candidates := {}
              renegotiation := c.restarted }
          effects := c.creations .offer }
  | connects {state} (hs : state = .connected ∨ state = .completed) :
      c.Reacts (.connectionChanged state)
        { channel :=
            { c with isConnected := true, negotiation := c.negotiation.advance .connected } }
  | loses (hc : c.isConnected = true) :
      c.Reacts (.connectionChanged .failed)
        (streamFailed { c with isConnected := false } .connectivityLost)
  | wavers {state} (hs : state ≠ .connected ∧ state ≠ .completed)
      (hf : state = .failed → c.isConnected = false) :
      c.Reacts (.connectionChanged state) c.still
  | gathers {state} : c.Reacts (.gatheringChanged state) c.still
  | finds {candidate envelope}
      (he : envelope =
        .ofCandidate c.session candidate.mid candidate.lineIndex candidate.candidate) :
      c.Reacts (.candidateFound candidate)
        { channel := { c with candidates := (c.candidates.offer envelope).2 }
          effects := (c.candidates.offer envelope).1.map .send }
  | withdraws {removed} :
      c.Reacts (.candidatesRemoved removed)
        { channel := c
          effects := [.send ⟨c.session, .removedCandidates (removed.map attributeLine)⟩] }
  | withdrawsNothing : c.Reacts (.candidatesRemoved []) c.still
  | attaches {media} (hb : c.pending.subscribe = none) :
      c.Reacts (.streamAdded media)
        { channel := { c with subscribed := c.subscribed.map (·.withMedia media) } }
  | notesMedia {media call} (hb : c.pending.subscribe = some call)
      (ho : c.latch.serverReady = false) :
      c.Reacts (.streamAdded media)
        { channel :=
            { c with
              subscribed := c.subscribed.map (·.withMedia media)
              latch := { c.latch with mediaArrived := true } } }
  | joinsMedia {media call} (hb : c.pending.subscribe = some call)
      (ho : c.latch.serverReady = true) :
      c.Reacts (.streamAdded media)
        { channel :=
            { c with
              subscribed := c.subscribed.map (·.withMedia media)
              pending := .empty
              latch := {} }
          effects := [.post (.succeeded call c.session)] }
  | confirmsPublish {current options media reply calls}
      (hc : calls = if c.isOpen then c.senders media else []) :
      c.Reacts (.answered current (.requestPublish options media) (.ok reply))
        { channel := c.confirmHandshake reply.acknowledgement
          effects := calls.map .engine ++ c.creations .offer }
  | confirmsSubscribe {current options stream reply} :
      c.Reacts (.answered current (.requestSubscribe options stream) (.ok reply))
        { channel := c.confirmHandshake reply.acknowledgement, effects := c.creations .offer }
  | deniesPublish {current options media error} :
      c.Reacts (.answered current (.requestPublish options media) (.error error))
        (c.handshakeFailed error)
  | deniesSubscribe {current options stream error} :
      c.Reacts (.answered current (.requestSubscribe options stream) (.error error))
        (c.handshakeFailed error)
  | applies {current creation options reply} :
      c.Reacts (.answered current (.create creation options) (.ok reply))
        { channel := c
          effects := [.proceed (.setLocal
            { reply.description with sdp := c.preferConfigured reply.description.sdp })] }
  | createsNothing {current creation options error} :
      c.Reacts (.answered current (.create creation options) (.error error)) c.still
  | limits {description reply} :
      c.Reacts (.answered none (.setLocal description) (.ok reply))
        { channel := c, effects := c.bitrateLimits.map .engine }
  | describes {current description reply} :
      c.Reacts (.answered (some current) (.setLocal description) (.ok reply))
        { channel := { c with negotiation := c.negotiation.advance .descriptionSent }
          effects := c.bitrateLimits.map .engine ++
            [.send ⟨c.session, .description current.kind current.sdp⟩] }
  | failsLocal {current description error} :
      c.Reacts (.answered current (.setLocal description) (.error error))
        (c.descriptionFailed .localDescription)
  | renews {current description reply} :
      c.Reacts (.answered current (.setRemote description) (.ok reply))
        { channel := { c with renegotiation := c.renegotiation.advance .completed } }
  | failsRemote {current description error} :
      c.Reacts (.answered current (.setRemote description) (.error error))
        (c.descriptionFailed .remoteDescription)
  | reports {current event session call reply} :
      c.Reacts (.answered current (.reportEnd event session call) (.ok reply))
        { channel := c, effects := call.toList.map fun call => .post (.finished call) }
  | reportsFailure {current event session call error} :
      c.Reacts (.answered current (.reportEnd event session call) (.error error))
        { channel := c
          effects := call.toList.map fun call => .post (.failed call error.toChannelError) }
  | finishes {current ofPublication session target operation call reply} :
      c.Reacts (.answered current (.control ofPublication session target operation call)
          (.ok reply))
        { channel := c, effects := [.post (.finished call)] }
  | failsControl {current ofPublication session target operation call error} :
      c.Reacts (.answered current (.control ofPublication session target operation call)
          (.error error))
        { channel := c, effects := [.post (.failed call error.toChannelError)] }
  | measured {current call reply} :
      c.Reacts (.answered current (.statistics call) (.ok reply))
        { channel := c, effects := [.post (.measured call reply.statistics)] }
  | unmeasured {current call error} :
      c.Reacts (.answered current (.statistics call) (.error error))
        { channel := c, effects := [.post (.failed call error.toChannelError)] }

theorem publish_reacts (stream : Option LocalStream) (call : CallId) :
    c.Reacts (.publish stream call) (c.publish stream call) := by
  unfold publish
  split
  next => exact .refusesPublish
  next =>
    split
    next => exact .refusesPublish
    next hm =>
      split
      · exact .refusesPublish
      · split
        · exact .refusesPublish
        · exact .publishes hm

theorem subscribe_reacts (stream : Option RemoteStream) (options : SubscribeOptions)
    (call : CallId) :
    c.Reacts (.subscribe stream options call) (c.subscribe stream options call) := by
  unfold subscribe
  split
  next => exact .refusesSubscribe
  next stream =>
    split
    next => exact .refusesSubscribe
    next ha =>
      split
      · exact .refusesSubscribe
      next hb =>
        have hs : c.Reacts (.subscribe (some stream) options call) _ :=
          .subscribes (by simpa using ha) (by simpa using hb) rfl
        cases ho : c.isOpen <;> simpa [ho] using hs

theorem control_reacts (target : ControlTarget) (operation : ControlOperation) (call : CallId) :
    c.Reacts (.control target operation call) (c.control target operation call) := by
  unfold control
  split
  · exact .refusesControl
  · exact .controls

theorem statistics_reacts (call : CallId) : c.Reacts (.statistics call) (c.statistics call) := by
  unfold statistics
  split
  · exact .refusesStatistics
  · split
    next ho => exact .measures ho
    next => exact .measuresNothing

theorem create_reacts (creation : Creation) : c.Reacts (.create creation) (c.create creation) := by
  rw [create_eq]
  exact .creates

theorem restartIce_reacts : c.Reacts .restartIce c.restartIce := by
  unfold restartIce
  split
  next hs =>
    rw [executeRestart_eq]
    exact .restarts hs
  next hs => exact .notesRestart (by simpa using hs)

theorem applyRemote_eq (sdp : String) :
    c.applyRemote sdp = c.failPending Cause.remoteDescription.error ∨ ∃ description,
      c.applyRemote sdp =
        { channel := c
          effects := if c.isOpen then [.spawn (.setRemote description)] else [] } := by
  unfold applyRemote
  split
  · exact Or.inl rfl
  next description _ =>
    refine Or.inr ⟨description, ?_⟩
    split <;> rfl

theorem applyRemote_reacts (sdp : String) : c.Reacts (.applyRemote sdp) (c.applyRemote sdp) := by
  obtain he | ⟨description, he⟩ := c.applyRemote_eq sdp
  · exact he ▸ .misreads
  · exact he ▸ .setsRemote

theorem serverSucceeded_reacts : c.Reacts (.receive (.text "success")) c.serverSucceeded := by
  unfold serverSucceeded
  cases hp : c.pending.publish with
  | some call => simpa [succeedPublish, PendingCalls.takePublish, hp] using Reacts.completes hp
  | none =>
    cases hb : c.pending.subscribe with
    | none => simpa using Reacts.expectsNothing hb
    | some call =>
      cases ho : c.latch.mediaArrived with
      | true =>
        simpa [SubscribeLatch.noteServer, SubscribeLatch.fire, succeedSubscribe,
          PendingCalls.takeSubscribe, hb, ho] using Reacts.joinsServer hb ho
      | false =>
        simpa [SubscribeLatch.noteServer, SubscribeLatch.fire, hb, ho]
          using Reacts.notesServer hb ho

theorem ofDatum_eq_success_iff {message : Datum} :
    ServerMessage.ofDatum message = .success ↔ message = .text "success" := by
  cases message with
  | text status =>
    simp only [ServerMessage.ofDatum, ServerMessage.ofStatus, Datum.text.injEq]
    split
    · simp_all
    · split <;> simp_all
  | record fields =>
    simp only [ServerMessage.ofDatum]
    split <;> simp
  | _ => simp [ServerMessage.ofDatum]

theorem receive_reacts (message : Datum) : c.Reacts (.receive message) (c.receive message) := by
  have other (h : ServerMessage.ofDatum message ≠ .success) : message ≠ .text "success" :=
    mt ofDatum_eq_success_iff.mpr h
  unfold receive
  split
  next h =>
    obtain rfl := ofDatum_eq_success_iff.mp h
    exact c.serverSucceeded_reacts
  next h =>
    have hm := other (by simp [h])
    unfold serverFailed
    split
    · exact .fails hm
    · exact .ignores hm
  next h =>
    have hm := other (by simp [h])
    split
    · obtain he | ⟨description, he⟩ := c.applyRemote_eq _
      · exact he ▸ .fails hm
      · exact he ▸ .setsAnswer hm
    · exact .ignores hm
  next h _ _ => exact .ignores (other h)

theorem addObserver_reacts (observer : ObserverId) :
    c.Reacts (.addObserver observer) (c.addObserver observer).still := by
  unfold addObserver
  split
  next ho => exact .knows ho
  next ho => exact .enrols ho

section Signaling

variable {c} {state : SignalingState}

theorem signalingChanged_unstable (hs : state.isStable = false) :
    c.signalingChanged state =
      { channel :=
          { c with signaling := state, candidates := { c.candidates with stable := false } } } := by
  simp [signalingChanged, CandidateBuffer.report, Reaction.andThen, still, hs]

theorem signalingChanged_stable (hs : state.isStable = true) (hn : c.restartNoted = false) :
    c.signalingChanged state =
      { channel := { c with signaling := state, restartNoted := false, candidates := {} }
        effects := c.candidates.waiting.map .send } := by
  simp [signalingChanged, CandidateBuffer.report, Reaction.andThen, still, hs, hn]

theorem signalingChanged_restart (hs : state.isStable = true) (hn : c.restartNoted = true) :
    c.signalingChanged state =
      executeRestart { c with signaling := state, restartNoted := false, candidates := {} } := by
  simp [signalingChanged, CandidateBuffer.report, Reaction.andThen, hs, hn]

end Signaling

theorem signalingChanged_reacts (state : SignalingState) :
    c.Reacts (.signalingChanged state) (c.signalingChanged state) := by
  cases hs : state.isStable with
  | false => exact signalingChanged_unstable hs ▸ .suspends hs
  | true =>
    cases hn : c.restartNoted with
    | false => exact signalingChanged_stable hs hn ▸ .releases hs hn
    | true =>
      rw [signalingChanged_restart hs hn, executeRestart_eq]
      exact .restartsLate hs hn

theorem connectionChanged_reacts (state : IceConnectionState) :
    c.Reacts (.connectionChanged state) (c.connectionChanged state) := by
  cases state with
  | connected => exact .connects (Or.inl rfl)
  | completed => exact .connects (Or.inr rfl)
  | failed =>
    unfold connectionChanged
    dsimp only
    split
    next hc => exact .loses hc
    next hc => exact .wavers (by decide) fun _ => Bool.eq_false_iff.mpr hc
  | _ => exact .wavers (by decide) nofun

theorem candidatesRemoved_reacts (removed : List String) :
    c.Reacts (.candidatesRemoved removed) (c.candidatesRemoved removed) := by
  unfold candidatesRemoved
  split
  next h => exact h ▸ .withdrawsNothing
  next => exact .withdraws

theorem streamAdded_reacts (media : MediaStream) :
    c.Reacts (.streamAdded media) (c.streamAdded media) := by
  unfold streamAdded
  cases hb : c.pending.subscribe with
  | none => simpa [still, hb] using Reacts.attaches hb
  | some call =>
    cases ho : c.latch.serverReady with
    | true =>
      simpa [SubscribeLatch.noteMedia, SubscribeLatch.fire, succeedSubscribe,
        PendingCalls.takeSubscribe, hb, ho] using Reacts.joinsMedia hb ho
    | false =>
      simpa [SubscribeLatch.noteMedia, SubscribeLatch.fire, hb, ho] using Reacts.notesMedia hb ho

theorem publishConfirmed_eq (media : MediaStream) (ack : InitAck) :
    c.publishConfirmed media ack =
      { channel := c.confirmHandshake ack
        effects :=
          (if c.isOpen then c.senders media else []).map .engine ++ c.creations .offer } := by
  cases ho : c.isOpen <;>
    simp [publishConfirmed, confirmHandshake, senders, create, Reaction.andThen, still, ho]

theorem answered_reacts (current : Option SessionDescription) (task : Task) (answer : Answer) :
    c.Reacts (.answered current task answer) (c.answered current task answer) := by
  cases task <;> cases answer
  case requestPublish.ok =>
    rw [answered, publishConfirmed_eq]
    exact .confirmsPublish rfl
  case requestPublish.error => exact .deniesPublish
  case requestSubscribe.ok =>
    rw [answered, subscribeConfirmed, create_eq]
    exact .confirmsSubscribe
  case requestSubscribe.error => exact .deniesSubscribe
  case create.ok => exact .applies
  case create.error => exact .createsNothing
  case setLocal.ok => cases current with
    | none => exact .limits
    | some description => exact .describes
  case setLocal.error => exact .failsLocal
  case setRemote.ok => exact .renews
  case setRemote.error => exact .failsRemote
  case reportEnd.ok => exact .reports
  case reportEnd.error => exact .reportsFailure
  case control.ok => exact .finishes
  case control.error => exact .failsControl
  case statistics.ok => exact .measured
  case statistics.error => exact .unmeasured

/-- Whatever a channel meets, it does one of these. -/
theorem meet_reacts (stimulus : Stimulus) : c.Reacts stimulus (c.meet stimulus) := by
  cases stimulus with
  | publish stream call => exact c.publish_reacts stream call
  | subscribe stream options call => exact c.subscribe_reacts stream options call
  | unpublish session call => exact .unpublishes
  | unsubscribe session call => exact .unsubscribes
  | control target operation call => exact c.control_reacts target operation call
  | statistics call => exact c.statistics_reacts call
  | create creation => exact c.create_reacts creation
  | restartIce => exact c.restartIce_reacts
  | applyRemote sdp => exact c.applyRemote_reacts sdp
  | receive message => exact c.receive_reacts message
  | addObserver observer => exact c.addObserver_reacts observer
  | removeObserver observer => exact .dismisses
  | signalingChanged state => exact c.signalingChanged_reacts state
  | connectionChanged state => exact c.connectionChanged_reacts state
  | gatheringChanged state => exact .gathers
  | candidateFound candidate => exact .finds rfl
  | candidatesRemoved removed => exact c.candidatesRemoved_reacts removed
  | streamAdded media => exact c.streamAdded_reacts media
  | answered current task answer => exact c.answered_reacts current task answer
  | drop => exact .drops

end Channel

/-- Tells a caller or an observer of a failure. -/
inductive Effect.TellsFailure : Effect → Prop
  | call {call error} : TellsFailure (.post (.failed call error))
  | observer {observer stream error} : TellsFailure (.post (.streamFailed observer stream error))

namespace Channel

/-- A relation of a channel to a step that only tells of a failure, to a dismantling and to one step
after another. It then holds of every teardown as well. -/
structure Composes (P : Channel → Reaction → Prop) : Prop where
  tells (c : Channel) (published : Option LocalStream) (subscribed : Option RemoteStream)
    {effects : List Effect} (h : ∀ effect ∈ effects, effect.TellsFailure) :
    P c { channel := { c with published, subscribed }, effects }
  dismantle (c : Channel) (event : StreamEvent) (call : Option CallId) :
    P c (c.dismantle event call)
  andThen {c : Channel} {reaction : Reaction} {f : Channel → Reaction} (h : P c reaction)
    (hall : ∀ c' : Channel, P c' (f c')) : P c (reaction.andThen f)

namespace Composes

variable {P : Channel → Reaction → Prop} (h : Composes P) (c : Channel)
include h

theorem still : P c c.still := h.tells c c.published c.subscribed (by simp)

theorem refuse (call : Option CallId) (cause : Cause) : P c (c.refuse call cause) :=
  h.tells c c.published c.subscribed (by simp [Effect.TellsFailure.call])

theorem unpublish (session : String) (call : Option CallId) : P c (c.unpublish session call) := by
  unfold Channel.unpublish
  split
  · exact h.refuse c call _
  · exact h.andThen (h.dismantle c _ call) fun c' => h.tells c' none c'.subscribed (by simp)

theorem unsubscribe (session : String) (call : Option CallId) :
    P c (c.unsubscribe session call) := by
  unfold Channel.unsubscribe
  split
  · exact h.refuse c call _
  · split
    · exact h.refuse c call _
    · exact h.andThen (h.dismantle c _ call) fun c' => h.tells c' c'.published none (by simp)

theorem endStreams : P c c.endStreams := by
  unfold Channel.endStreams
  refine h.andThen ?_ fun c' => ?_
  · split
    · exact h.unpublish c _ none
    · exact h.still c
  · split
    · exact h.unsubscribe c' _ none
    · exact h.still c'

theorem streamFailed (cause : Cause) : P c (c.streamFailed cause) :=
  h.andThen (h.tells c c.published c.subscribed (by simp [Effect.TellsFailure.observer]))
    h.endStreams

theorem descriptionFailed {cause : Cause} (hf : P c (c.failPending cause.error)) :
    P c (c.descriptionFailed cause) :=
  h.andThen hf fun c' => h.streamFailed c' cause

end Composes

end Channel

end MediaSession
