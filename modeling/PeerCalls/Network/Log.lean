import PeerCalls.Network.Basic

/-!
# What the log of a network shows

Views of the log: replies to errands and executions in the order of their times
and call ids, ended calls in the order in which they ended.
-/

namespace PeerCalls

/-- Events with their times, in the order in which they happened. -/
abbrev Log := List (Time × Event)

/-- Something that happened to a call. -/
structure Log.Entry (α : Type) where
  time : Time
  id : UInt64
  content : α

namespace Log

/-- The first entry is not after the second one. -/
def Entry.notAfter {α : Type} (first second : Entry α) : Bool :=
  decide (first.time < second.time)
    || (first.time == second.time && decide (first.id ≤ second.id))

/-- Entries in the order of their times and call ids. -/
def inOrder {α : Type} (entries : List (Entry α)) : List (Entry α) :=
  entries.mergeSort Entry.notAfter

/-- The replies that errands got: the number of the errand, and the reply. -/
def returns (log : Log) : List (Entry (Nat × Reply)) :=
  inOrder <| log.filterMap fun (time, event) =>
    match event with
    | .returned errand reply => some ⟨time, reply.id, (errand, reply)⟩
    | _ => none

/-- The executions that began: the channel that asked for it, and the invocation. -/
def executions (log : Log) : List (Entry (Nat × Invocation)) :=
  inOrder <| log.filterMap fun (time, event) =>
    match event with
    | .executing channel invocation => some ⟨time, invocation.id, (channel, invocation)⟩
    | _ => none

/-- The calls that ended and left a queue: the channel, the call and its reply. -/
def endings (log : Log) : List (Entry (Nat × Call × Reply)) :=
  log.filterMap fun (time, event) =>
    match event with
    | .ended channel call reply => some ⟨time, reply.id, (channel, call, reply)⟩
    | _ => none

/-- What arrived at watched ends of links: a frame, or nothing once such an end was
found closed. -/
def arrivals (log : Log) : List (Time × Option Bytes) :=
  log.filterMap fun (time, event) =>
    match event with
    | .arrived _ frame => some (time, some frame)
    | .closed _ => some (time, none)
    | _ => none

/-- The reply to an errand, if there is one. -/
def replyOf? (log : Log) (errand : Nat) : Option Reply :=
  log.findSome? fun (_, event) =>
    match event with
    | .returned number reply => if number = errand then some reply else none
    | _ => none

end Log

end PeerCalls
