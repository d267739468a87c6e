import PeerCalls.Call.Reply
import PeerCalls.Call.Invocation
import PeerCalls.Peer
import PeerCalls.Time

/-!
# Services

A service executes the invocations of peers. It takes some time, and ends with
a value, with an error, or by breaking down.
-/

namespace PeerCalls

/-- How an execution ends. -/
inductive Conclusion where
  | value (content : Bytes)
  | failed (message : String)
  /-- The service broke down. -/
  | broken
  deriving Repr, DecidableEq, Inhabited

namespace Conclusion

/-- What the caller is told. -/
def verdict : Conclusion → Verdict
  | value content =>
    if content.length ≤ Invocation.maxFieldLength then .success content
    else .failure .remoteException "return value is too long"
  | failed message =>
    if message.utf8ByteSize ≤ Invocation.maxFieldLength then .failure .remoteException message
    else .failure .remoteException "failure message is too long"
  | broken => .failure .remoteException "method execution panicked"

end Conclusion

/-- What a service does with an invocation: how long it takes, and how it ends. -/
structure Reaction where
  duration : Span
  conclusion : Conclusion
  deriving Repr, DecidableEq, Inhabited

/-- A service that takes no time. -/
def Reaction.atOnce (conclusion : Conclusion) : Reaction := ⟨⟨0⟩, conclusion⟩

/-- Executes the invocations of peers. -/
abbrev Service := Contact → Invocation → Reaction

end PeerCalls
