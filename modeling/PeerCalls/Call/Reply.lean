import PeerCalls.Bytes
import PeerCalls.Text.Quoted

/-!
# Replies

How a call ended: with a value, or with a failure of one of six kinds. Only
failures of some kinds are worth another attempt.
-/

namespace PeerCalls

/-- The closed set of reasons for which a call fails. -/
inductive FailureKind where
  /-- The application on the other side failed. -/
  | remoteException
  /-- No reply came in time. -/
  | timeout
  /-- The queue on this side was full. -/
  | queueOverflow
  /-- The reply could not be read. -/
  | rpcError
  /-- The other side no longer knows how the call ended. -/
  | obsoleteCommand
  | other
  deriving Repr, DecidableEq, Inhabited

namespace FailureKind

/-- All kinds, in the order in which they are numbered. -/
def all : List FailureKind :=
  [remoteException, timeout, queueOverflow, rpcError, obsoleteCommand, other]

/-- Another attempt may succeed. -/
def isRetryable : FailureKind → Bool
  | timeout | queueOverflow | rpcError => true
  | remoteException | obsoleteCommand | other => false

/-- The name of the kind in a frame. -/
def name : FailureKind → String
  | remoteException => "RemoteException"
  | timeout => "Timeout"
  | queueOverflow => "QueueOverflow"
  | rpcError => "RpcError"
  | obsoleteCommand => "ObsoleteCommandID"
  | other => "Other"

/-- The kind with a given name. -/
def ofName? (name : String) : Option FailureKind :=
  all.find? (fun kind => kind.name == name)

theorem ofName?_eq_some_iff {text : String} {kind : FailureKind} :
    ofName? text = some kind ↔ kind.name = text := by
  constructor
  · intro found
    simpa using List.find?_some found
  · rintro rfl
    cases kind <;> simp [ofName?, all, name]

end FailureKind

/-- How an invocation ended. An empty message of a failure means that there is
none. -/
inductive Verdict where
  | success (value : Bytes)
  | failure (kind : FailureKind) (message : String)
  deriving Repr, DecidableEq, Inhabited

/-- The end of the invocation with a given id. -/
structure Reply where
  id : UInt64
  verdict : Verdict
  deriving Repr, DecidableEq, Inhabited

namespace Reply

def success (id : UInt64) (value : Bytes) : Reply := ⟨id, .success value⟩

def failure (id : UInt64) (kind : FailureKind) (message : String) : Reply :=
  ⟨id, .failure kind message⟩

def value? (reply : Reply) : Option Bytes :=
  match reply.verdict with
  | .success value => some value
  | .failure _ _ => none

def kind? (reply : Reply) : Option FailureKind :=
  match reply.verdict with
  | .success _ => none
  | .failure kind _ => some kind

/-- A failure after which another attempt may succeed. -/
def isRetryableFailure (reply : Reply) : Bool :=
  reply.kind?.any FailureKind.isRetryable

/-- A reply as it is shown in messages, with a text in place of the id: the size of
a value, or the failure. -/
def textWith (id : String) (reply : Reply) : String :=
  let content := match reply.verdict with
    | .success value => "success, " ++ toString value.length ++ " bytes"
    | .failure kind message => kind.name ++ " " ++ Quoted.text message
  "RpcResult\x7b#" ++ id ++ ": " ++ content ++ "\x7d"

/-- A reply as it is shown in messages. -/
def text (reply : Reply) : String := reply.textWith (toString reply.id.toNat)

end Reply

end PeerCalls
