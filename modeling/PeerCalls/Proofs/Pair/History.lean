import Mathlib.Logic.Function.Basic
import PeerCalls.Call.Basic
import PeerCalls.Proofs.Channel.Answers
import PeerCalls.Proofs.Channel.Link
import PeerCalls.Proofs.Frame.Reading
import PeerCalls.Service.Basic

/-!
# What two peers know for good

Two peers call each other across any number of links. Most of what is known about
their calls, once known, stays known: which calls came into a queue, which executions
are over and how they ended, which frames the links carry. A history is all of this,
and everything a peer has in its hands is justified by the history: a frame by a call
that came into the queue or by an execution that is over, a reply to a call likewise.
As histories only grow, what is justified stays justified.
-/

namespace PeerCalls

/-- What two peers have done. -/
structure History where
  /-- The calls that came into the queue of a side, in this order. -/
  calls : Side → List Call
  /-- What a side answers to calls of the other one. -/
  answers : Side → Answers
  /-- A side has executed an invocation. -/
  concluded : Side → Invocation → Conclusion → Prop
  /-- There is a link that carries frames up to a length. -/
  limit : Nat → Prop

namespace History

variable (history : History) (side : Side)

/-- The call came into the queue, up to the state of its attempt. -/
def Issued (call : Call) : Prop :=
  ∃ issued ∈ history.calls side, issued.reset = call.reset

/-- The frame of a call is too long for some link. -/
def Exceeds (call : Call) : Prop :=
  ∃ limit, history.limit limit ∧ limit < call.invocation.encode.length

/-- The frame of a call is short enough for some link. -/
def Fits (call : Call) : Prop :=
  ∃ limit, history.limit limit ∧ call.invocation.encode.length ≤ limit

/-- No execution of the call is under way, and none is to come. A call that is not
retried, or that is too long for some link, need not be over to be done with. -/
def Settled (id : UInt64) : Prop :=
  (history.answers side.other).IsOver id ∨
    ∃ call ∈ history.calls side, call.id = id ∧
      (call.isRetryable = false ∨ history.Exceeds call)

/-- The call came into the queue, and those before it are settled. -/
def Due (call : Call) : Prop :=
  ∃ earlier later, history.calls side = earlier ++ call :: later ∧
    ∀ former ∈ earlier, history.Settled side former.id

/-- What a reply says to a call of a side is what the other side did. -/
def Backs (reply : Reply) : Prop :=
  match reply.verdict with
  | .success value => ∃ call ∈ history.calls side, call.id = reply.id ∧
      history.concluded side.other call.invocation (.value value)
  | .failure .remoteException _ => ∃ call ∈ history.calls side, call.id = reply.id ∧
      ∃ conclusion, history.concluded side.other call.invocation conclusion
  | .failure .obsoleteCommand message => message = ""
  | .failure _ _ => False

/-- A reply that the other side has given to a call of a side. -/
structure Answered (reply : Reply) : Prop where
  isOver : (history.answers side.other).IsOver reply.id
  fits : reply.verdict.Fits
  backed : history.Backs side reply

/-- A reply that a call of a side may get: from the other side, or because of a
failure on this side. -/
structure Ends (call : Call) (reply : Reply) : Prop where
  id : reply.id = call.id
  cause : history.Answered side reply ∨ reply.isRetryableFailure = true ∨
    reply.kind? = some .other ∧ history.Exceeds call

/-- A frame that may arrive at a side: of a call that is due, or of a reply. -/
def Arrives (frame : Bytes) : Prop :=
  (∃ call, history.Due side.other call ∧ history.Fits call ∧
    frame = call.invocation.encode) ∨
  ∃ reply, history.Answered side reply ∧ frame = reply.encode

/-- A history with later answers of a side. -/
def learn (answers : Answers) : History :=
  { history with answers := Function.update history.answers side answers }

/-- A history has gone on. -/
structure Continues (before after : History) : Prop where
  calls : ∀ side, before.calls side <+: after.calls side
  answers : ∀ {side : Side} {id : UInt64}, (before.answers side).IsOver id →
    (after.answers side).IsOver id
  concluded : ∀ {side : Side} {invocation : Invocation} {conclusion : Conclusion},
    before.concluded side invocation conclusion → after.concluded side invocation conclusion
  limit : ∀ {limit : Nat}, before.limit limit → after.limit limit

namespace Continues

variable {before after : History} {side : Side}

theorem refl (history : History) : Continues history history :=
  ⟨fun _ => List.prefix_refl _, id, id, id⟩

theorem trans {middle : History} (left : Continues before middle)
    (right : Continues middle after) : Continues before after where
  calls side := (left.calls side).trans (right.calls side)
  answers isOver := right.answers (left.answers isOver)
  concluded concluded := right.concluded (left.concluded concluded)
  limit there := right.limit (left.limit there)

variable (continues : Continues before after)
include continues

theorem mem {call : Call} (member : call ∈ before.calls side) : call ∈ after.calls side :=
  (continues.calls side).subset member

theorem issued {call : Call} (issued : before.Issued side call) : after.Issued side call := by
  obtain ⟨original, member, same⟩ := issued
  exact ⟨original, continues.mem member, same⟩

theorem exceeds {call : Call} (exceeds : before.Exceeds call) : after.Exceeds call := by
  obtain ⟨limit, there, long⟩ := exceeds
  exact ⟨limit, continues.limit there, long⟩

theorem fits {call : Call} (fits : before.Fits call) : after.Fits call := by
  obtain ⟨limit, there, short⟩ := fits
  exact ⟨limit, continues.limit there, short⟩

theorem settled {id : UInt64} (settled : before.Settled side id) : after.Settled side id := by
  rcases settled with isOver | ⟨call, member, same, reason⟩
  · exact Or.inl (continues.answers isOver)
  · exact Or.inr ⟨call, continues.mem member, same, reason.imp_right continues.exceeds⟩

theorem due {call : Call} (due : before.Due side call) : after.Due side call := by
  obtain ⟨earlier, later, equal, settled⟩ := due
  obtain ⟨added, grown⟩ := continues.calls side
  refine ⟨earlier, later ++ added, ?_, fun former member =>
    continues.settled (settled former member)⟩
  rw [← grown, equal, List.append_assoc, List.cons_append]

theorem backs {reply : Reply} (backed : before.Backs side reply) : after.Backs side reply := by
  simp only [Backs] at backed ⊢
  split
  next value success =>
    simp only [success] at backed
    obtain ⟨call, member, same, concluded⟩ := backed
    exact ⟨call, continues.mem member, same, continues.concluded concluded⟩
  next message failure =>
    simp only [failure] at backed
    obtain ⟨call, member, same, conclusion, concluded⟩ := backed
    exact ⟨call, continues.mem member, same, conclusion, continues.concluded concluded⟩
  next message failure =>
    simp only [failure] at backed
    exact backed
  next kind message _ _ failure =>
    rw [failure] at backed
    cases kind <;> simp_all

theorem answered {reply : Reply} (answered : before.Answered side reply) :
    after.Answered side reply :=
  ⟨continues.answers answered.isOver, answered.fits, continues.backs answered.backed⟩

theorem ends {call : Call} {reply : Reply} (ends : before.Ends side call reply) :
    after.Ends side call reply where
  id := ends.id
  cause := ends.cause.imp continues.answered (Or.imp_right (And.imp_right continues.exceeds))

theorem arrives {frame : Bytes} (arrives : before.Arrives side frame) :
    after.Arrives side frame := by
  rcases arrives with ⟨call, due, fits, equal⟩ | ⟨reply, answered, equal⟩
  · exact Or.inl ⟨call, continues.due due, continues.fits fits, equal⟩
  · exact Or.inr ⟨reply, continues.answered answered, equal⟩

end Continues

variable {history side}

/-! ## Calls and their replies -/

theorem Issued.reset_eq {call other : Call} (issued : history.Issued side call)
    (same : other.reset = call.reset) : history.Issued side other := by
  obtain ⟨original, member, equal⟩ := issued
  exact ⟨original, member, equal.trans same.symm⟩

/-- A call that has got its last reply is settled. -/
theorem Ends.settled {call : Call} {reply : Reply} (ends : history.Ends side call reply)
    (issued : history.Issued side call)
    (isLast : (reply.isRetryableFailure && call.isRetryable) = false) :
    history.Settled side call.id := by
  obtain ⟨original, member, same⟩ := issued
  have invocation := Call.invocation_eq_of_reset_eq same
  have policy := Call.policy_eq_of_reset_eq same
  have sameId : original.id = call.id := congrArg Invocation.id invocation
  rcases ends.cause with answered | failed | ⟨_, limit, there, long⟩
  · exact Or.inl (ends.id ▸ answered.isOver)
  · right
    refine ⟨original, member, sameId, Or.inl ?_⟩
    rw [failed, Bool.true_and, Call.isRetryable, ← policy] at isLast
    exact isLast
  · right
    exact ⟨original, member, sameId, Or.inr ⟨limit, there, invocation ▸ long⟩⟩

/-- A reply that says something about an execution comes from the other side. -/
theorem Ends.backs {call : Call} {reply : Reply} (ends : history.Ends side call reply)
    (tells : reply.isRetryableFailure = false) (known : reply.kind? ≠ some .other) :
    history.Backs side reply := by
  rcases ends.cause with answered | failed | ⟨other, _⟩
  · exact answered.backed
  · cases tells.symm.trans failed
  · exact absurd other known

/-! ## Learning -/

theorem answers_learn_self (answers : Answers) :
    (history.learn side answers).answers side = answers := by
  simp only [learn, Function.update_self]

theorem learn_eq_self {answers : Answers} (same : history.answers side = answers) :
    history.learn side answers = history := by
  rw [learn, ← same, Function.update_eq_self]

theorem learn_learn (first second : Answers) :
    (history.learn side first).learn side second = history.learn side second := by
  simp only [learn, Function.update_idem]

theorem continues_learn {answers : Answers}
    (learns : ∀ id, (history.answers side).IsOver id → answers.IsOver id) :
    Continues history (history.learn side answers) where
  calls _ := List.prefix_refl _
  answers {other id} isOver := by
    by_cases same : other = side
    · subst same
      rw [answers_learn_self]
      exact learns id isOver
    · simp only [learn]
      rwa [Function.update_of_ne same]
  concluded := id
  limit := id

end History

end PeerCalls
