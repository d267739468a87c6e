import PeerCalls.Call.Basic
import PeerCalls.Frame.Invocation

/-!
# Stored calls

What a file of the backlog holds: the retry policy, the timeout in milliseconds
after a byte that says whether there is one, and the frame of the call. The
target is not stored with the call, and neither is the state of an attempt.
-/

namespace PeerCalls.StoredCall

/-- A timeout in whole milliseconds, as long as eight bytes can say. -/
def timeoutMilliseconds (timeout : Span) : UInt64 :=
  UInt64.ofNat (min timeout.milliseconds (UInt64.size - 1))

def encodeTimeout : Option Span → Bytes
  | none => [0]
  | some timeout => 1 :: Bytes.ofWord (timeoutMilliseconds timeout)

def encode (call : Call) : Bytes :=
  RetryPolicy.tag call.policy :: encodeTimeout call.timeout ++ call.invocation.encode

def policyReader : Reader (Option RetryPolicy) := do
  let tag ← Reader.byte "retry strategy"
  match RetryPolicy.ofTag? tag with
  | some policy => return policy
  | none => throw (.unknownPolicy tag)

def timeoutReader : Reader (Option Span) := do
  let flag ← Reader.byte "timeout flag"
  if flag = 0 then
    return none
  else if flag = 1 then
    return some (Span.ofMilliseconds (← Reader.word "timeout").toNat)
  else
    throw (.unknownTimeoutFlag flag)

/-- Take a call to a target and nothing else. -/
def reader (target : Peer) : Reader Call := do
  let policy ← policyReader
  let timeout ← timeoutReader
  let invocation ← Invocation.reader
  return { Call.new target invocation with policy, timeout }

/-- The call to a target that a file holds. -/
def decode (target : Peer) (content : Bytes) : Except Frame.Fault Call :=
  (reader target).decode content

end PeerCalls.StoredCall
