import PeerCalls.Call.Reply

/-!
# Answers to repeated calls

A peer that gets no reply sends its call again. So that no call is executed
twice, the calls of one peer that are being executed are remembered, and the
replies to those with the largest ids. An id at or below the largest forgotten
one is refused: nobody knows any more whether it was executed.
-/

namespace PeerCalls

/-- What one peer's calls were answered. `replies` is in the order of the ids. -/
structure Answers where
  capacity : Nat
  executing : List UInt64
  replies : List Reply
  forgottenUpTo : Option UInt64
  deriving Repr, DecidableEq, Inhabited

/-- What to do with a call that arrives. -/
inductive Disposition where
  | execute
  /-- It is being executed. -/
  | inProgress
  /-- It was executed, with this reply. -/
  | cached (reply : Reply)
  /-- It may have been executed, and its reply is forgotten. -/
  | obsolete
  deriving Repr, DecidableEq

namespace Answers

/-- No answers yet. At least one reply is kept. -/
def new (capacity : Nat) : Answers := ⟨max capacity 1, [], [], none⟩

def reply? (answers : Answers) (id : UInt64) : Option Reply :=
  answers.replies.find? (fun reply => reply.id == id)

/-- The id is not above a forgotten one. -/
def isForgotten (answers : Answers) (id : UInt64) : Bool :=
  answers.forgottenUpTo.any (fun forgotten => decide (id ≤ forgotten))

/-- Decide about a call that arrives. A call to be executed is being executed
from now on. -/
def arrive (answers : Answers) (id : UInt64) : Disposition × Answers :=
  if id ∈ answers.executing then (.inProgress, answers)
  else
    match answers.reply? id with
    | some reply => (.cached reply, answers)
    | none =>
      if answers.isForgotten id then (.obsolete, answers)
      else (.execute, { answers with executing := id :: answers.executing })

/-- Insert a reply at its place, instead of another one with the same id. -/
def insertReply (reply : Reply) : List Reply → List Reply
  | [] => [reply]
  | head :: rest =>
    if reply.id < head.id then reply :: head :: rest
    else if reply.id = head.id then reply :: rest
    else head :: insertReply reply rest

/-- The larger of an id and one that may be there. -/
def larger (known : Option UInt64) (id : UInt64) : UInt64 :=
  match known with
  | some known => if known < id then id else known
  | none => id

/-- Forget the reply with the smallest id, as long as there are too many. -/
def evict (capacity : Nat) :
    List Reply → (forgotten : Option UInt64) → List Reply × Option UInt64
  | [], forgotten => ([], forgotten)
  | smallest :: rest, forgotten =>
    if (smallest :: rest).length ≤ capacity then (smallest :: rest, forgotten)
    else evict capacity rest (some (larger forgotten smallest.id))

/-- A call was executed, with this reply. -/
def record (answers : Answers) (reply : Reply) : Answers :=
  let (replies, forgotten) :=
    evict answers.capacity (insertReply reply answers.replies) answers.forgottenUpTo
  { answers with
    executing := answers.executing.filter (· != reply.id)
    replies
    forgottenUpTo := forgotten }

end Answers

end PeerCalls
