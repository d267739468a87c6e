import PeerCalls.Call.Reply

/-!
# Waiters

Whoever issues a call waits for its reply. Waiters are numbered in the order in
which they register; for each call id the one that registered last is pending,
and those before it get nothing any more.
-/

namespace PeerCalls

/-- What a waiter knows. -/
inductive Waiter where
  | waiting
  /-- The reply is there and not yet taken. -/
  | resolved (reply : Reply)
  /-- There will be no reply, or it is taken. -/
  | closed
  /-- The waiter is gone. -/
  | gone
  deriving Repr, DecidableEq, Inhabited

/-- All waiters ever registered, and for each call id the number of the one that
gets its reply. -/
structure Waiters where
  all : Array Waiter
  pending : List (UInt64 × Nat)
  deriving Repr, DecidableEq, Inhabited

namespace Waiters

def none : Waiters := ⟨#[], []⟩

/-- How many calls somebody may wait for. -/
def size (waiters : Waiters) : Nat := waiters.pending.length

def state (waiters : Waiters) (number : Nat) : Waiter :=
  waiters.all.getD number .closed

/-- The number of the waiter for a call. -/
def pendingFor? (waiters : Waiters) (id : UInt64) : Option Nat :=
  waiters.pending.lookup id

/-- Change what a waiter knows. -/
def modify (waiters : Waiters) (number : Nat) (change : Waiter → Waiter) : Waiters :=
  { waiters with all := waiters.all.modify number change }

/-- Nobody answers a waiter any more. -/
def closeWaiting : Waiter → Waiter
  | .waiting => .closed
  | other => other

/-- Forget the waiter for a call: it gets nothing any more. -/
def remove (waiters : Waiters) (id : UInt64) : Waiters :=
  match waiters.pendingFor? id with
  | some number =>
    { waiters.modify number closeWaiting with
      pending := waiters.pending.filter (·.1 != id) }
  | Option.none => waiters

/-- Register a waiter for a call instead of the one before it. -/
def register (waiters : Waiters) (id : UInt64) : Nat × Waiters :=
  let others := waiters.remove id
  (others.all.size,
    { all := others.all.push .waiting, pending := (id, others.all.size) :: others.pending })

/-- Give a reply to the waiter for its call, and say whether somebody got it. -/
def complete (waiters : Waiters) (reply : Reply) : Bool × Waiters :=
  match waiters.pendingFor? reply.id with
  | some number =>
    let isThere := waiters.state number == .waiting
    (isThere,
      { waiters.modify number (fun waiter =>
          if waiter = .waiting then .resolved reply else waiter) with
        pending := waiters.pending.filter (·.1 != reply.id) })
  | Option.none => (false, waiters)

/-- A waiter looks whether its reply is there, and takes it. -/
def poll (waiters : Waiters) (number : Nat) : Waiter × Waiters :=
  match waiters.state number with
  | .resolved reply => (.resolved reply, waiters.modify number fun _ => .closed)
  | other => (other, waiters)

/-- A waiter goes away. -/
def drop (waiters : Waiters) (number : Nat) : Waiters :=
  waiters.modify number fun _ => .gone

end Waiters

end PeerCalls
