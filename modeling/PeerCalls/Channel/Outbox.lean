import PeerCalls.Channel.Settings
import PeerCalls.Channel.Waiters
import PeerCalls.Queue

/-!
# Outboxes

An outbox is what a caller keeps for one target across connections: the queue,
the waiters, and a signal for the channel that serves the target now. A `Run` is
one call on its way through an outbox. It registers a waiter, puts the call into
the queue, and then waits for the reply or for its timeout; each of these three
is one step. A run that ends forgets the waiter for its call id, whichever run
registered it. The call itself may stay in the queue after its run has ended.
-/

namespace PeerCalls

/-- What a caller keeps for one target. Several signals before the channel looks
are one signal. -/
structure Outbox where
  queue : Queue
  waiters : Waiters
  isSignaled : Bool
  settings : Settings
  deriving Repr, DecidableEq, Inhabited

/-- The progress of a run. -/
inductive RunStage where
  /-- The waiter is registered, and the call is not yet queued. -/
  | enqueuing
  /-- The call is queued; the wait for its reply ends at a time. -/
  | waiting (expiry : Time)
  | returned (reply : Reply)
  deriving Repr, DecidableEq, Inhabited

/-- A call on its way through an outbox, with the number of its waiter. -/
structure Run where
  call : Call
  waiter : Nat
  stage : RunStage
  deriving Repr, DecidableEq, Inhabited

namespace Outbox

/-- Why there is no outbox. -/
inductive Fault where
  | settings (fault : Settings.Fault)
  | backlog (fault : Backlog.Fault)
  deriving Repr, DecidableEq

/-- What failed, and why. -/
def Fault.fullMessage : Fault → String
  | settings fault => fault.message
  | backlog fault => fault.fullMessage

/-- An outbox with the calls of the backlog. -/
def create (target : Peer) (backlog : Option Backlog) (settings : Settings) :
    Except Fault Outbox := do
  (settings.validate).mapError Fault.settings
  let queue ← (Queue.create target settings.maxQueueLength backlog).mapError Fault.backlog
  return ⟨queue, Waiters.none, false, settings⟩

/-- Tell the channel that there is something to do. -/
def signal (outbox : Outbox) : Outbox := { outbox with isSignaled := true }

def enqueue (outbox : Outbox) (backlog : Option Backlog) (call : Call) :
    Except Queue.Fault Queue.Admission × Outbox × Option Backlog :=
  let (result, queue, backlog) := outbox.queue.enqueue backlog call
  (result, { outbox with queue }, backlog)

def dequeue (outbox : Outbox) (backlog : Option Backlog) :
    Except Backlog.Fault (Option Call) × Outbox × Option Backlog :=
  let (result, queue, backlog) := outbox.queue.dequeue backlog
  (result, { outbox with queue }, backlog)

/-- Give a reply to whoever waits for it. -/
def complete (outbox : Outbox) (reply : Reply) : Bool × Outbox :=
  let (isThere, waiters) := outbox.waiters.complete reply
  (isThere, { outbox with waiters })

/-- Forget the waiter for a call. -/
def abandon (outbox : Outbox) (id : UInt64) : Outbox :=
  { outbox with waiters := outbox.waiters.remove id }

end Outbox

namespace Run

/-- A call begins its way: its waiter is registered. -/
def start (outbox : Outbox) (call : Call) : Run × Outbox :=
  let (waiter, waiters) := outbox.waiters.register call.id
  (⟨call, waiter, .enqueuing⟩, { outbox with waiters })

def timeout (run : Run) (outbox : Outbox) : Span :=
  run.call.effectiveTimeout outbox.settings.defaultTimeout

/-- A run ends with a reply. -/
def finish (run : Run) (outbox : Outbox) (reply : Reply) : Run × Outbox :=
  ({ run with stage := .returned reply }, outbox.abandon run.call.id)

/-- The call of a run goes into the queue. -/
def enqueue (run : Run) (now : Time) (outbox : Outbox) (backlog : Option Backlog) :
    (Run × Outbox) × Option Backlog :=
  match outbox.enqueue backlog run.call with
  | (.ok .accepted, outbox, backlog) =>
    (({ run with stage := .waiting (Time.wakeAfter now (run.timeout outbox)) }, outbox.signal),
      backlog)
  | (.ok .overflow, outbox, backlog) =>
    (run.finish outbox (Reply.failure run.call.id .queueOverflow
      ("queue for " ++ outbox.queue.target.text ++ " is full")), backlog)
  | (.error fault, outbox, backlog) =>
    (run.finish outbox (Reply.failure run.call.id .other fault.fullMessage), backlog)

/-- A run looks for its reply, and then at the clock. -/
def look (run : Run) (now : Time) (outbox : Outbox) (expiry : Time) :
    Option (Run × Outbox) :=
  match outbox.waiters.poll run.waiter with
  | (.resolved reply, waiters) => some (run.finish { outbox with waiters } reply)
  | (.closed, _) | (.gone, _) =>
    some (run.finish outbox (Reply.failure run.call.id .other "call was abandoned"))
  | (.waiting, _) =>
    if expiry ≤ now then
      some (run.finish { outbox with waiters := outbox.waiters.drop run.waiter }
        (Reply.failure run.call.id .timeout
          ("no result after " ++ (run.timeout outbox).text)))
    else none

/-- The next step of a run, if it can take one now. -/
def step (run : Run) (now : Time) (outbox : Outbox) (backlog : Option Backlog) :
    Option ((Run × Outbox) × Option Backlog) :=
  match run.stage with
  | .enqueuing => some (run.enqueue now outbox backlog)
  | .waiting expiry => (run.look now outbox expiry).map fun next => (next, backlog)
  | .returned _ => none

end Run

end PeerCalls
