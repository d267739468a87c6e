import PeerCalls.Backlog.Files
import PeerCalls.Backlog.Memory

/-!
# Backlogs

A backlog keeps calls that are not delivered yet, in memory or in files, for
each target apart. It can be told to refuse operations; an operation that it
refuses changes nothing.
-/

namespace PeerCalls

/-- Where calls are kept. -/
inductive CallStore where
  | memory (calls : MemoryBacklog)
  | files (backlog : FileBacklog) (disk : FileSystem)
  deriving Repr, Inhabited

/-- A store of calls, and the operations that it refuses. -/
structure Backlog where
  store : CallStore
  refuses : List Backlog.Operation
  deriving Repr, Inhabited

namespace Backlog

def ofStore (store : CallStore) : Backlog := ⟨store, []⟩

/-- A backlog in memory, without calls. -/
def inMemory : Backlog := ofStore (.memory .empty)

/-- A backlog that refuses nothing. -/
def allowing (backlog : Backlog) : Backlog := { backlog with refuses := [] }

/-- Run a program on the files of a backlog. -/
def runOn {α : Type} (backlog : Backlog) (files : FileBacklog) (disk : FileSystem)
    (program : FileBacklog.Program α) : Except Fault α × Backlog :=
  let (result, disk) := program.run.run disk
  (result, { backlog with store := .files files disk })

/-- Do an operation unless it is refused. -/
def guarded {α : Type} (backlog : Backlog) (operation : Operation)
    (result : Except Fault α × Backlog) : Except Fault α × Backlog :=
  if operation ∈ backlog.refuses then (.error (.refused operation), backlog) else result

def enqueue (backlog : Backlog) (call : Call) : Except Fault Unit × Backlog :=
  backlog.guarded .enqueue <|
    match backlog.store with
    | .memory calls => (.ok (), { backlog with store := .memory (calls.enqueue call) })
    | .files files disk => backlog.runOn files disk (files.enqueue call)

def remove (backlog : Backlog) (target : Peer) (id : UInt64) : Except Fault Bool × Backlog :=
  backlog.guarded .remove <|
    match backlog.store with
    | .memory calls =>
      let (removed, calls) := calls.remove target id
      (.ok removed, { backlog with store := .memory calls })
    | .files files disk => backlog.runOn files disk (files.remove target id)

def readAll (backlog : Backlog) (target : Peer) : Except Fault (List Call) × Backlog :=
  backlog.guarded .read <|
    match backlog.store with
    | .memory calls => (.ok (calls.readAll target), backlog)
    | .files files disk => backlog.runOn files disk (files.readAll target)

def peek (backlog : Backlog) (target : Peer) : Except Fault (Option Call) × Backlog :=
  match backlog.store with
  | .memory calls => (.ok (calls.peek target), backlog)
  | .files files disk => backlog.runOn files disk (files.peek target)

def dequeue (backlog : Backlog) (target : Peer) : Except Fault (Option Call) × Backlog :=
  match backlog.store with
  | .memory calls =>
    let (call, calls) := calls.dequeue target
    (.ok call, { backlog with store := .memory calls })
  | .files files disk => backlog.runOn files disk (files.dequeue target)

def removeByName (backlog : Backlog) (target : Peer) (name : String) :
    Except Fault Nat × Backlog :=
  match backlog.store with
  | .memory calls =>
    let (count, calls) := calls.removeByName target name
    (.ok count, { backlog with store := .memory calls })
  | .files files disk => backlog.runOn files disk (files.removeByName target name)

/-- A new backlog at the same place. What was in memory is lost. -/
def reopen (backlog : Backlog) : Backlog :=
  match backlog.store with
  | .memory _ => { backlog with store := .memory .empty }
  | .files _ _ => backlog

end Backlog

end PeerCalls
