import MediaSession.WorkQueue

namespace MediaSession

/-- A task of an event queue that is known by a name and posts further tasks when it runs. -/
inductive Errand where
  | mk (name : String) (followUps : List Errand)
  deriving Inhabited

mutual

/-- How many tasks run because of this one, itself included. -/
def Errand.size : Errand → Nat
  | .mk _ followUps => sizes followUps + 1

def Errand.sizes : List Errand → Nat
  | [] => 0
  | errand :: rest => errand.size + sizes rest

end

theorem Errand.sizes_append (xs ys : List Errand) :
    Errand.sizes (xs ++ ys) = Errand.sizes xs + Errand.sizes ys := by
  induction xs with
  | nil => simp [Errand.sizes]
  | cons x xs ih => simp [Errand.sizes, ih, Nat.add_assoc]

def Errand.order (queue : List Errand) : List String :=
  match queue with
  | [] => []
  | .mk name followUps :: rest => name :: Errand.order (rest ++ followUps)
  termination_by Errand.sizes queue
  decreasing_by simp [Errand.sizes, Errand.size, Errand.sizes_append]; omega

/-- Runs everything that is posted, and what is posted meanwhile. -/
def Errand.runAll (queue : WorkQueue Errand) : List String × WorkQueue Errand :=
  match queue.worker with
  | .stopped => ([], queue)
  | _ => (Errand.order queue.waiting, { worker := .idle })

end MediaSession
