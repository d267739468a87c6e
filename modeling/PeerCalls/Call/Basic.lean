import PeerCalls.Peer
import PeerCalls.Time
import PeerCalls.Call.Ids
import PeerCalls.Call.Invocation
import PeerCalls.Call.Reply

/-!
# Calls

A call is an invocation on its way to a target: how it is retried, how long to
wait for it, and the state of the attempt that is on the wire now.
-/

namespace PeerCalls

/-- What happens after a failure that is worth another attempt. -/
inductive RetryPolicy where
  /-- The failure goes to the caller. -/
  | never
  /-- The call keeps its place in the queue and is sent again. -/
  | retry
  /-- Like `retry`, and only the latest call of a method to a target is stored. -/
  | latest
  deriving Repr, DecidableEq, Inhabited

namespace RetryPolicy

def allowsRetry : RetryPolicy → Bool
  | never => false
  | retry | latest => true

def name : RetryPolicy → String
  | never => "none"
  | retry => "retry"
  | latest => "latest"

/-- The policy with a name. -/
def ofName? (name : String) : Option RetryPolicy :=
  [never, retry, latest].find? (·.name == name)

/-- The byte that stands for a policy in a stored call. -/
def tag : Option RetryPolicy → UInt8
  | none => 0x2d
  | some never => 0x4e
  | some retry => 0x52
  | some latest => 0x4c

/-- The policy that a byte stands for. -/
def ofTag? (tag : UInt8) : Option (Option RetryPolicy) :=
  if tag = 0x2d then some none
  else if tag = 0x4e then some (some never)
  else if tag = 0x52 then some (some retry)
  else if tag = 0x4c then some (some latest)
  else none

theorem ofTag?_eq_some_iff {byte : UInt8} {policy : Option RetryPolicy} :
    ofTag? byte = some policy ↔ byte = tag policy := by
  constructor
  · intro found
    unfold ofTag? at found
    split at found
    next equal => cases found; exact equal
    next =>
      split at found
      next equal => cases found; exact equal
      next =>
        split at found
        next equal => cases found; exact equal
        next =>
          split at found
          next equal => cases found; exact equal
          next => cases found
  · rintro rfl
    rcases policy with _ | policy
    · rfl
    · cases policy <;> rfl

end RetryPolicy

/-- A call to a target. `startedAt` and `reply` belong to the current attempt. -/
structure Call where
  target : Peer
  invocation : Invocation
  policy : Option RetryPolicy
  timeout : Option Span
  startedAt : Option Time
  reply : Option Reply
  deriving Repr, DecidableEq, Inhabited

namespace Call

/-- A call that no attempt was made for. -/
def new (target : Peer) (invocation : Invocation) : Call :=
  ⟨target, invocation, none, none, none, none⟩

/-- A call with a fresh id, given what the clock of the ids reads. The id is spent
even if the invocation is refused. -/
def fresh (ids : IdSource) (reading : UInt64) (target : Peer) (name : String)
    (params : List Bytes) : Except Invocation.Fault Call × IdSource :=
  let (id, ids) := ids.next reading
  ((Invocation.make id name params).map (new target), ids)

def id (call : Call) : UInt64 := call.invocation.id

def name (call : Call) : String := call.invocation.name

/-- The call is sent again after a failure that is worth it. -/
def isRetryable (call : Call) : Bool := call.policy.any RetryPolicy.allowsRetry

/-- Only the latest call of this method is stored. -/
def isLatest (call : Call) : Bool := call.policy = some .latest

/-- How long to wait for the call, given how long calls wait by default. -/
def effectiveTimeout (call : Call) (default : Span) : Span := call.timeout.getD default

def start (call : Call) (now : Time) : Call := { call with startedAt := some now }

/-- When the current attempt times out: never while there is none, or if the
clock cannot reach that time. -/
def deadline (call : Call) (default : Span) : Option Time :=
  call.startedAt.bind fun start => Time.after? start (call.effectiveTimeout default)

def withReply (call : Call) (reply : Reply) : Call := { call with reply := some reply }

/-- The reply of the current attempt, and the call without it. -/
def takeReply (call : Call) : Option Reply × Call := (call.reply, { call with reply := none })

/-- The call without its current attempt. -/
def reset (call : Call) : Call := { call with startedAt := none, reply := none }

@[simp] theorem id_start (call : Call) (now : Time) : (call.start now).id = call.id := rfl

@[simp] theorem id_withReply (call : Call) (reply : Reply) :
    (call.withReply reply).id = call.id := rfl

@[simp] theorem id_reset (call : Call) : call.reset.id = call.id := rfl

@[simp] theorem reset_reset (call : Call) : call.reset.reset = call.reset := rfl

theorem invocation_eq_of_reset_eq {call other : Call} (same : call.reset = other.reset) :
    call.invocation = other.invocation := by
  have equal := congrArg Call.invocation same
  exact equal

theorem policy_eq_of_reset_eq {call other : Call} (same : call.reset = other.reset) :
    call.policy = other.policy := by
  have equal := congrArg Call.policy same
  exact equal

theorem id_eq_of_reset_eq {call other : Call} (same : call.reset = other.reset) :
    call.id = other.id := by
  rw [id, invocation_eq_of_reset_eq same, ← id]

theorem isRetryable_eq_of_reset_eq {call other : Call} (same : call.reset = other.reset) :
    call.isRetryable = other.isRetryable := by
  rw [isRetryable, policy_eq_of_reset_eq same, ← isRetryable]

theorem isRetryable_of_policy {call : Call}
    (retried : call.policy = some .retry ∨ call.policy = some .latest) :
    call.isRetryable = true := by
  rcases retried with policy | policy <;> rw [isRetryable, policy] <;> rfl

end Call

end PeerCalls
