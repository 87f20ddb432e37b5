import MediaSession.Rehearsal.Run

namespace MediaSession

def Rehearsal.opening (config : ChannelConfig) (usual : Endpoint → Answer) : Rehearsal :=
  { channel := some { config }, usual }

/-- What may happen next: a command, a turn, or the answer to any of the held calls. -/
inductive Move where
  | command (command : Command)
  | turn
  | answer (position : Nat) (answer : Answer)
  deriving Inhabited

def Rehearsal.move (r : Rehearsal) : Move → Rehearsal
  | .command command => (command.execute r).1
  | .turn => r.tick.getD r
  | .answer position answer =>
    match r.held[position]? with
    | some task =>
      { r with
        held := r.held.eraseIdx position
        runQueue := r.runQueue ++ [.resume task answer] }
    | none => r

/-- The run that consists of these moves. -/
def Rehearsal.play (config : ChannelConfig) (usual : Endpoint → Answer) (moves : List Move) :
    Rehearsal :=
  moves.foldl Rehearsal.move (opening config usual)

end MediaSession
