import MediaSession.Channel.Stimulus
import MediaSession.Rehearsal.Script
import MediaSession.WorkQueue

namespace MediaSession

/-- The continuations of a call: a name, and what they do after they have been told the outcome. -/
structure Caller (κ : Type) where
  name : String
  onSuccess : List κ := []
  onFailure : List κ := []
  deriving Inhabited

/-- What is wrong with a command: a part of it is missing, or a value is not one of its type. -/
inductive Defect where
  | incomplete
  | illTyped
  deriving DecidableEq, Inhabited, Repr

inductive Command where
  | publish (stream : Option LocalStream) (caller : Caller Command)
  | subscribe (stream : Option RemoteStream) (options : SubscribeOptions) (caller : Caller Command)
  | unpublish (session : Option String) (caller : Option (Caller Command))
  | unsubscribe (session : Option String) (caller : Option (Caller Command))
  | control (target : ControlTarget) (operation : ControlOperation) (caller : Caller Command)
  | statistics (caller : Caller Command)
  | create (creation : Creation)
  | restartIce
  | applyRemote (sdp : String)
  | receive (message : Datum)
  | addObserver (observer : ObserverId) (onFailure : List Command)
  | removeObserver (observer : ObserverId)
  | signalingChanged (state : SignalingState)
  | connectionChanged (state : IceConnectionState)
  | gatheringChanged (state : IceGatheringState)
  | candidateFound (candidate : IceCandidate)
  | candidatesRemoved (removed : List String)
  | streamAdded (media : MediaStream)
  | drop
  | batch (commands : List Command)
  | plan (endpoint : Endpoint) (plans : List Plan)
  | release (endpoint : Endpoint) (answer : Answer)
  | hideLocalDescription (hidden : Bool)
  | defective (needsChannel : Bool) (defect : Defect)
  deriving Inhabited

inductive Outcome where
  | nothing
  | gone
  | unknownObserver
  | flag (value : Bool)
  | defective (defect : Defect)
  | several (outcomes : List Outcome)
  deriving Inhabited

inductive Job where
  | start (task : Task)
  | resume (task : Task) (answer : Answer)
  | notices
  | outgoing
  deriving Inhabited

/--
A channel together with scripted collaborators and the run queue that serves them, first in, first
out. The workers of both queues wait until something is posted to them.
-/
structure Rehearsal where
  channel : Option Channel
  usual : Endpoint → Answer
  script : Script := []
  held : List Task := []
  runQueue : List Job := []
  notices : WorkQueue Notice := {}
  outgoing : WorkQueue SignalingEnvelope := {}
  callers : List (Caller Command) := []
  observers : List (ObserverId × List Command) := []
  localDescription : Option SessionDescription := none
  localHidden : Bool := false
  log : List Record := []
  /-- The steps that the channel has made, in order. -/
  history : List Turn := []

def Rehearsal.note (r : Rehearsal) (record : Record) : Rehearsal :=
  { r with log := r.log ++ [record] }

def Rehearsal.takePlan (r : Rehearsal) (endpoint : Endpoint) : Plan × Rehearsal :=
  ((r.script.take endpoint).1.getD (.answer (r.usual endpoint)),
    { r with script := (r.script.take endpoint).2 })

def Rehearsal.currentLocal (r : Rehearsal) : Option SessionDescription :=
  if r.localHidden then none else r.localDescription

def Rehearsal.callEngine (r : Rehearsal) (call : EngineCall) : Rehearsal :=
  match call.endpoint? with
  | some endpoint => ((r.note (.engine call)).takePlan endpoint).2
  | none => r.note (.engine call)

def Rehearsal.post (r : Rehearsal) (notice : Notice) : Rehearsal :=
  { r with
    notices := r.notices.post notice
    runQueue := r.runQueue ++ if r.notices.wakes then [.notices] else [] }

def Rehearsal.send (r : Rehearsal) (envelope : SignalingEnvelope) : Rehearsal :=
  { r with
    outgoing := r.outgoing.post envelope
    runQueue := r.runQueue ++ if r.outgoing.wakes then [.outgoing] else [] }

def Rehearsal.perform (r : Rehearsal) : Effect → Rehearsal
  | .post notice => r.post notice
  | .send envelope => r.send envelope
  | .spawn task => { r with runQueue := r.runQueue ++ [.start task] }
  | .proceed task => { r with runQueue := .start task :: r.runQueue }
  | .engine call => r.callEngine call

/-- The channel makes a step and takes its new state; the effects are performed in order. -/
def Rehearsal.meet (r : Rehearsal) (turn : Turn) : Rehearsal :=
  turn.reaction.effects.foldl Rehearsal.perform
    { r with channel := some turn.after, history := r.history ++ [turn] }

/-- Brings something before the channel as long as there is one. -/
def Rehearsal.withChannel (r : Rehearsal) (stimulus : Stimulus) : Rehearsal × Outcome :=
  match r.channel with
  | some c => (r.meet ⟨c, stimulus⟩, .nothing)
  | none => (r, .gone)

/-- Makes a call with continuations, which are kept under a number of their own. -/
def Rehearsal.callFor (r : Rehearsal) (caller : Caller Command)
    (stimulus : CallId → Stimulus) : Rehearsal × Outcome :=
  match r.channel with
  | some c =>
    (Rehearsal.meet { r with callers := r.callers ++ [caller] } ⟨c, stimulus r.callers.length⟩,
      .nothing)
  | none => (r, .gone)

def Rehearsal.callMaybeFor (r : Rehearsal) (caller : Option (Caller Command))
    (stimulus : Option CallId → Stimulus) : Rehearsal × Outcome :=
  match caller with
  | some caller => r.callFor caller fun call => stimulus (some call)
  | none => r.withChannel (stimulus none)

def takeHeld (endpoint : Endpoint) : List Task → Option Task × List Task
  | [] => (none, [])
  | task :: rest =>
    if task.endpoint = endpoint then (some task, rest)
    else
      let (found, others) := takeHeld endpoint rest
      (found, task :: others)

def Rehearsal.release (r : Rehearsal) (endpoint : Endpoint) (answer : Answer) :
    Rehearsal × Bool :=
  if endpoint = .message then
    if r.outgoing.worker = .blocked then
      ({ r with
          outgoing := { r.outgoing with worker := .due }
          runQueue := r.runQueue ++ [.outgoing] }, true)
    else (r, false)
  else
    match takeHeld endpoint r.held with
    | (some task, held) =>
      ({ r with held, runQueue := r.runQueue ++ [.resume task answer] }, true)
    | (none, _) => (r, false)

/-- Registers an observer; what it does is settled when it is named first. -/
def Rehearsal.enlist (r : Rehearsal) (observer : ObserverId) (onFailure : List Command) :
    Rehearsal :=
  if r.observers.any (·.1 == observer) then r
  else { r with observers := r.observers ++ [(observer, onFailure)] }

mutual

/-- Carries a command out at once; calls that it starts wait for their turn in the run queue. -/
def Command.execute (r : Rehearsal) : Command → Rehearsal × Outcome
  | .publish stream caller => r.callFor caller (.publish stream)
  | .subscribe stream options caller => r.callFor caller (.subscribe stream options)
  | .unpublish session caller => r.callMaybeFor caller (.unpublish session)
  | .unsubscribe session caller => r.callMaybeFor caller (.unsubscribe session)
  | .control target operation caller => r.callFor caller (.control target operation)
  | .statistics caller => r.callFor caller .statistics
  | .create creation => r.withChannel (.create creation)
  | .restartIce => r.withChannel .restartIce
  | .applyRemote sdp => r.withChannel (.applyRemote sdp)
  | .receive message => r.withChannel (.receive message)
  | .addObserver observer onFailure =>
    match r.channel with
    | some _ => (r.enlist observer onFailure).withChannel (.addObserver observer)
    | none => (r, .gone)
  | .removeObserver observer =>
    match r.channel with
    | some _ =>
      if r.observers.any (·.1 == observer) then r.withChannel (.removeObserver observer)
      else (r, .unknownObserver)
    | none => (r, .gone)
  | .signalingChanged state => r.withChannel (.signalingChanged state)
  | .connectionChanged state => r.withChannel (.connectionChanged state)
  | .gatheringChanged state => r.withChannel (.gatheringChanged state)
  | .candidateFound candidate => r.withChannel (.candidateFound candidate)
  | .candidatesRemoved removed => r.withChannel (.candidatesRemoved removed)
  | .streamAdded media => r.withChannel (.streamAdded media)
  | .drop =>
    match r.channel with
    | some c => ({ r.meet ⟨c, .drop⟩ with channel := none }, .flag true)
    | none => (r, .flag false)
  | .batch commands =>
    match executeAll r commands with
    | (r, .ok outcomes) => (r, .several outcomes)
    | (r, .error defect) => (r, .defective defect)
  | .plan endpoint plans => ({ r with script := r.script ++ plans.map (endpoint, ·) }, .nothing)
  | .release endpoint answer =>
    let (r, released) := r.release endpoint answer
    (r, .flag released)
  | .hideLocalDescription hidden => ({ r with localHidden := hidden }, .nothing)
  | .defective needsChannel defect =>
    (r, if needsChannel && r.channel.isNone then .gone else .defective defect)

/-- Carries commands out one after the other, and none after a defective one. -/
def executeAll (r : Rehearsal) : List Command → Rehearsal × Except Defect (List Outcome)
  | [] => (r, .ok [])
  | command :: rest =>
    match command.execute r with
    | (r, .defective defect) => (r, .error defect)
    | (r, outcome) =>
      match executeAll r rest with
      | (r, .ok outcomes) => (r, .ok (outcome :: outcomes))
      | (r, .error defect) => (r, .error defect)

end

end MediaSession
