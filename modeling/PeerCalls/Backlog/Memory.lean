import PeerCalls.Call.Basic

/-!
# Calls kept in memory

The calls of all targets, those of one target in the order of their ids.
-/

namespace PeerCalls

/-- Stored calls in the order of their ids, at most one for each target and id. -/
structure MemoryBacklog where
  calls : List Call
  deriving Repr, DecidableEq, Inhabited

namespace MemoryBacklog

def empty : MemoryBacklog := ⟨[]⟩

/-- All calls to a target, oldest first. -/
def readAll (backlog : MemoryBacklog) (target : Peer) : List Call :=
  backlog.calls.filter (·.target = target)

def peek (backlog : MemoryBacklog) (target : Peer) : Option Call :=
  (backlog.readAll target).head?

/-- Take away some calls to a target: how many there were, and the others. -/
def removeWhere (backlog : MemoryBacklog) (target : Peer) (selects : Call → Bool) :
    Nat × MemoryBacklog :=
  let isSelected := fun (call : Call) => decide (call.target = target) && selects call
  (backlog.calls.countP isSelected, ⟨backlog.calls.filter fun call => !isSelected call⟩)

def remove (backlog : MemoryBacklog) (target : Peer) (id : UInt64) : Bool × MemoryBacklog :=
  let (count, backlog) := backlog.removeWhere target (·.id = id)
  (decide (count > 0), backlog)

def removeByName (backlog : MemoryBacklog) (target : Peer) (name : String) :
    Nat × MemoryBacklog :=
  backlog.removeWhere target (·.name = name)

def dequeue (backlog : MemoryBacklog) (target : Peer) : Option Call × MemoryBacklog :=
  match backlog.peek target with
  | some call => (some call, (backlog.removeWhere target (·.id = call.id)).2)
  | none => (none, backlog)

/-- Insert a call behind those with smaller ids. -/
def insertCall (call : Call) : List Call → List Call
  | [] => [call]
  | head :: rest =>
    if head.id < call.id then head :: insertCall call rest else call :: head :: rest

/-- Store a call instead of one with the same id, and instead of all others of its
method if it is the latest one that counts. -/
def enqueue (backlog : MemoryBacklog) (call : Call) : MemoryBacklog :=
  let others := (backlog.removeWhere call.target fun other =>
    other.id = call.id || (call.isLatest && other.name = call.name)).2
  ⟨insertCall call others.calls⟩

end MemoryBacklog

end PeerCalls
