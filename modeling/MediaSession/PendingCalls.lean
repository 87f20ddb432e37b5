namespace MediaSession

/-- Continuations of calls that wait for their outcome; a failure slot serves both kinds of call. -/
structure PendingCalls (α : Type) where
  publish : Option α := none
  subscribe : Option α := none
  failure : Option α := none
  deriving DecidableEq, Inhabited

def PendingCalls.empty : PendingCalls α := {}

/-- A new call takes over the slot of its kind and the failure slot. -/
def PendingCalls.awaitPublish (pending : PendingCalls α) (call : α) : PendingCalls α :=
  { pending with publish := some call, failure := some call }

def PendingCalls.awaitSubscribe (pending : PendingCalls α) (call : α) : PendingCalls α :=
  { pending with subscribe := some call, failure := some call }

/-- Takes a continuation; whoever finds one empties all slots. -/
def PendingCalls.takePublish (pending : PendingCalls α) : Option α × PendingCalls α :=
  match pending.publish with
  | some call => (some call, empty)
  | none => (none, pending)

def PendingCalls.takeSubscribe (pending : PendingCalls α) : Option α × PendingCalls α :=
  match pending.subscribe with
  | some call => (some call, empty)
  | none => (none, pending)

/-- All slots are empty afterwards, even if no failure continuation was there. -/
def PendingCalls.takeFailure (pending : PendingCalls α) : Option α × PendingCalls α :=
  (pending.failure, empty)

structure SubscribeLatch where
  mediaArrived : Bool := false
  serverReady : Bool := false
  deriving DecidableEq, Inhabited, Repr

/-- Fires when both signals are there, and starts again. -/
def SubscribeLatch.fire (latch : SubscribeLatch) : Bool × SubscribeLatch :=
  if latch.mediaArrived && latch.serverReady then (true, {}) else (false, latch)

def SubscribeLatch.noteMedia (latch : SubscribeLatch) : Bool × SubscribeLatch :=
  SubscribeLatch.fire { latch with mediaArrived := true }

def SubscribeLatch.noteServer (latch : SubscribeLatch) : Bool × SubscribeLatch :=
  SubscribeLatch.fire { latch with serverReady := true }

end MediaSession
