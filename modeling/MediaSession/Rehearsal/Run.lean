import MediaSession.Rehearsal

namespace MediaSession

/-- The name of a continuation or an observer, and what it does once it has been told. -/
def Rehearsal.followUps (r : Rehearsal) : Notice → String × List Command
  | .failed call _ =>
    match r.callers[call]? with
    | some caller => (caller.name, caller.onFailure)
    | none => ("", [])
  | .streamFailed observer _ _ =>
    (observer, ((r.observers.find? (·.1 == observer)).map (·.2)).getD [])
  | .succeeded call _ | .finished call | .measured call _ =>
    match r.callers[call]? with
    | some caller => (caller.name, caller.onSuccess)
    | none => ("", [])

/-- Runs a continuation or an observer to its end; what its commands report meets nobody. -/
def Rehearsal.deliver (r : Rehearsal) (notice : Notice) : Rehearsal :=
  let (name, commands) := r.followUps notice
  commands.foldl (fun r command => (command.execute r).1) (r.note (.notified name notice))

/-- The engine keeps a local description that has been applied, whether the channel lives or not. -/
def Rehearsal.keepLocal (r : Rehearsal) : Task → Answer → Rehearsal
  | .setLocal description, .ok _ => { r with localDescription := some description }
  | _, _ => r

/-- Goes on with a call; if the channel is gone the answer meets nobody. -/
def Rehearsal.answer (r : Rehearsal) (task : Task) (answer : Answer) : Rehearsal :=
  let r := r.keepLocal task answer
  match r.channel with
  | some c => r.meet ⟨c, .answered r.currentLocal task answer⟩
  | none => r

def Rehearsal.follow (r : Rehearsal) (task : Task) : Plan → Rehearsal
  | .hold => { r with held := r.held ++ [task] }
  | .answer answer => r.answer task answer

/-- One envelope is handed over; the worker goes on with the next one only after the answer. -/
def Rehearsal.handOver (r : Rehearsal) (rest : List Job) : Rehearsal :=
  match r.outgoing.waiting with
  | [] => { r with outgoing := { worker := .idle }, runQueue := rest }
  | envelope :: waiting =>
    match (r.note (.message envelope)).takePlan .message with
    | (.hold, r) => { r with outgoing := { waiting, worker := .blocked }, runQueue := rest }
    | (.answer _, r) => { r with outgoing := { waiting, worker := .due } }

/-- The next turn: the worker of a queue keeps its turn as long as something is posted to it. -/
def Rehearsal.tick (r : Rehearsal) : Option Rehearsal :=
  match r.runQueue with
  | [] => none
  | .start task :: rest =>
    let (plan, r) :=
      (Rehearsal.note { r with runQueue := rest } task.record).takePlan task.endpoint
    some (r.follow task plan)
  | .resume task answer :: rest => some (Rehearsal.answer { r with runQueue := rest } task answer)
  | .notices :: rest =>
    match r.notices.waiting with
    | [] => some { r with notices := { worker := .idle }, runQueue := rest }
    | notice :: waiting =>
      some (Rehearsal.deliver { r with notices := { waiting, worker := .due } } notice)
  | .outgoing :: rest => some (r.handOver rest)

def Rehearsal.run : Nat → Rehearsal → Rehearsal
  | 0, r => r
  | turns + 1, r =>
    match r.tick with
    | some r => run turns r
    | none => r

/-- Carries a command out with all that follows from it; the log begins anew. -/
def Rehearsal.step (turns : Nat) (r : Rehearsal) (command : Command) : Rehearsal × Outcome :=
  let (r, outcome) := command.execute { r with log := [] }
  (r.run turns, outcome)

def Rehearsal.stop (r : Rehearsal) : Rehearsal :=
  { r with
    runQueue := []
    held := []
    notices := r.notices.stop
    outgoing := r.outgoing.stop }

end MediaSession
