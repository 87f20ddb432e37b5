namespace MediaSession

/-- Messages about network paths, held back while the signaling is not stable. -/
structure CandidateBuffer (α : Type) where
  stable : Bool := true
  waiting : List α := []
  deriving DecidableEq, Inhabited

inductive CandidateBuffer.Release where
  | send
  | discard
  deriving DecidableEq, Inhabited, Repr

def CandidateBuffer.offer (buffer : CandidateBuffer α) (message : α) :
    List α × CandidateBuffer α :=
  if buffer.stable then ([message], buffer)
  else ([], { buffer with waiting := buffer.waiting ++ [message] })

/-- Takes note of the stability; messages leave the buffer only if it is stable. -/
def CandidateBuffer.report (buffer : CandidateBuffer α) (stable : Bool) (release : Release) :
    List α × CandidateBuffer α :=
  if stable then
    match release with
    | .send => (buffer.waiting, { stable := true })
    | .discard => ([], { stable := true })
  else ([], { buffer with stable := false })

/-- How many messages leave the buffer with such a report. -/
def CandidateBuffer.released (buffer : CandidateBuffer α) (stable : Bool) : Nat :=
  if stable then buffer.waiting.length else 0

def CandidateBuffer.clear (buffer : CandidateBuffer α) : CandidateBuffer α :=
  { buffer with waiting := [] }

end MediaSession
