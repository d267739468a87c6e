import PeerCalls.Backlog.Basic

/-!
# Queues of calls

The calls that wait for one target, in the order in which they are sent. A call
stays at the head until it has ended. Calls that are sent again after a failure
are also in the backlog, if there is one, so that a queue made anew has them. An
operation that fails changes nothing.
-/

namespace PeerCalls

/-- The calls that wait for a target. -/
structure Queue where
  target : Peer
  maxLength : Nat
  calls : List Call
  deriving Repr, DecidableEq, Inhabited

namespace Queue

/-- Whether a queue took a call. -/
inductive Admission where
  | accepted
  /-- The queue is full. -/
  | overflow
  deriving Repr, DecidableEq

/-- Why an operation fails. -/
inductive Fault where
  | wrongTarget (id : UInt64) (target expected : Peer)
  | backlog (fault : Backlog.Fault)
  deriving Repr, DecidableEq

/-- What failed. -/
def Fault.message : Fault → String
  | wrongTarget id target expected =>
    "call #" ++ toString id.toNat ++ " for " ++ target.text
      ++ " was enqueued in the queue for " ++ expected.text
  | backlog fault => fault.message

/-- What failed, and why. -/
def Fault.fullMessage : Fault → String
  | backlog fault => fault.fullMessage
  | other => other.message

/-- A queue with the calls of the backlog, as if no attempt had been made. -/
def create (target : Peer) (maxLength : Nat) (backlog : Option Backlog) :
    Except Backlog.Fault Queue :=
  match backlog with
  | none => .ok ⟨target, maxLength, []⟩
  | some backlog =>
    match (backlog.readAll target).1 with
    | .ok calls => .ok ⟨target, maxLength, calls.map Call.reset⟩
    | .error fault => .error fault

def ids (queue : Queue) : List UInt64 := queue.calls.map Call.id

def peek (queue : Queue) : Option Call := queue.calls.head?

/-- Store a call if it is sent again after a failure and there is a backlog. -/
def persist (backlog : Option Backlog) (call : Call) :
    Except Backlog.Fault Unit × Option Backlog :=
  match backlog with
  | some backlog =>
    if call.isRetryable then
      let (result, backlog) := backlog.enqueue call
      (result, some backlog)
    else (.ok (), some backlog)
  | none => (.ok (), none)

/-- Take a call out of the backlog, which need not have it any more. -/
def unpersist (backlog : Option Backlog) (target : Peer) (call : Call) :
    Except Backlog.Fault Unit × Option Backlog :=
  match backlog with
  | some backlog =>
    if call.isRetryable then
      let (result, backlog) := backlog.remove target call.id
      (result.map fun _ => (), some backlog)
    else (.ok (), some backlog)
  | none => (.ok (), none)

/-- Put a call at the end, if it is for this target and there is room. -/
def enqueue (queue : Queue) (backlog : Option Backlog) (call : Call) :
    Except Fault Admission × Queue × Option Backlog :=
  if call.target ≠ queue.target then
    (.error (.wrongTarget call.id call.target queue.target), queue, backlog)
  else if queue.calls.length ≥ queue.maxLength then
    (.ok .overflow, queue, backlog)
  else
    match persist backlog call with
    | (.error fault, backlog) => (.error (.backlog fault), queue, backlog)
    | (.ok (), backlog) =>
      (.ok .accepted, { queue with calls := queue.calls ++ [call] }, backlog)

/-- Take the call at the head. -/
def dequeue (queue : Queue) (backlog : Option Backlog) :
    Except Backlog.Fault (Option Call) × Queue × Option Backlog :=
  match queue.calls with
  | [] => (.ok none, queue, backlog)
  | head :: rest =>
    match unpersist backlog queue.target head with
    | (.error fault, backlog) => (.error fault, queue, backlog)
    | (.ok (), backlog) => (.ok (some head), { queue with calls := rest }, backlog)

/-- Take the call at the head if it has a given id. -/
def dequeueIfHead (queue : Queue) (backlog : Option Backlog) (id : UInt64) :
    Except Backlog.Fault (Option Call) × Queue × Option Backlog :=
  match queue.peek with
  | some head => if head.id = id then queue.dequeue backlog else (.ok none, queue, backlog)
  | none => (.ok none, queue, backlog)

end Queue

end PeerCalls
