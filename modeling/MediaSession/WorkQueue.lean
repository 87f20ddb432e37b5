namespace MediaSession

/-- The worker of a queue waits for items, is due to run, waits for an answer, or is gone. -/
inductive WorkerState where
  | idle
  | due
  | blocked
  | stopped
  deriving DecidableEq, Inhabited, Repr

/-- Items served by one worker in the order in which they were posted. -/
structure WorkQueue (α : Type) where
  waiting : List α := []
  worker : WorkerState := .idle
  deriving DecidableEq, Inhabited

/-- A queue whose worker is gone drops what is posted. -/
def WorkQueue.post (queue : WorkQueue α) (item : α) : WorkQueue α :=
  match queue.worker with
  | .stopped => queue
  | .idle => { waiting := queue.waiting ++ [item], worker := .due }
  | _ => { queue with waiting := queue.waiting ++ [item] }

/-- Posting wakes an idle worker. -/
def WorkQueue.wakes (queue : WorkQueue α) : Bool := queue.worker = .idle

def WorkQueue.stop (_ : WorkQueue α) : WorkQueue α := { worker := .stopped }

end MediaSession
