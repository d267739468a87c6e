import PeerCalls.Queue

/-!
# What queue operations do

A call that is accepted comes to the end, a call that is taken was the head, and an
operation that does neither leaves the queue as it is.
-/

namespace PeerCalls.Queue

section

variable {backlog : Backlog} {target : Peer} {call : Call}

/-- A queue that is created has what can be read. -/
theorem eq_of_create {maxLength : Nat} {queue : Queue}
    (created : create target maxLength (some backlog) = .ok queue) :
    ∃ calls, (backlog.readAll target).1 = .ok calls ∧
      queue = ⟨target, maxLength, calls.map Call.reset⟩ := by
  simp only [create] at created
  split at created
  next calls read =>
    cases created
    exact ⟨calls, read, rfl⟩
  next => cases created

/-- The calls with which a queue begins: those of the backlog, as if no attempt had been made. -/
def restored (target : Peer) : Option Backlog → List Call
  | none => []
  | some backlog => ((backlog.readAll target).1.toOption.getD []).map Call.reset

theorem eq_restored_of_create {maxLength : Nat} {backlog : Option Backlog} {queue : Queue}
    (created : create target maxLength backlog = .ok queue) :
    queue = ⟨target, maxLength, restored target backlog⟩ := by
  cases backlog with
  | none =>
      cases created
      rfl
  | some backlog =>
      obtain ⟨calls, read, rfl⟩ := eq_of_create created
      rw [restored, read]
      rfl

theorem target_of_create {maxLength : Nat} {backlog : Option Backlog} {queue : Queue}
    (created : create target maxLength backlog = .ok queue) : queue.target = target := by
  rw [eq_restored_of_create created]

end

/-- How putting a call into a queue ends. -/
inductive Enqueued (queue : Queue) (call : Call) :
    Except Fault Admission × Queue × Option Backlog → Prop where
  | accepted {backlog : Option Backlog} :
      call.target = queue.target → queue.calls.length < queue.maxLength →
      Enqueued queue call
        (.ok .accepted, { queue with calls := queue.calls ++ [call] }, backlog)
  | overflow {backlog : Option Backlog} : queue.maxLength ≤ queue.calls.length →
      Enqueued queue call (.ok .overflow, queue, backlog)
  | error {fault : Fault} {backlog : Option Backlog} :
      Enqueued queue call (.error fault, queue, backlog)

theorem enqueue_cases (queue : Queue) (backlog : Option Backlog) (call : Call) :
    Enqueued queue call (queue.enqueue backlog call) := by
  unfold enqueue
  split
  · exact .error
  next sameTarget =>
    split
    next full => exact .overflow full
    next room =>
      split
      · exact .error
      · exact .accepted (Decidable.not_not.mp sameTarget) (Nat.lt_of_not_le room)

/-- How taking the head of a queue ends. -/
inductive Dequeued (queue : Queue) :
    Except Backlog.Fault (Option Call) × Queue × Option Backlog → Prop where
  | taken {head : Call} {rest : List Call} {backlog : Option Backlog} :
      queue.calls = head :: rest →
      Dequeued queue (.ok (some head), { queue with calls := rest }, backlog)
  | empty {backlog : Option Backlog} :
      queue.calls = [] → Dequeued queue (.ok none, queue, backlog)
  | error {fault : Backlog.Fault} {backlog : Option Backlog} :
      Dequeued queue (.error fault, queue, backlog)

theorem dequeue_cases (queue : Queue) (backlog : Option Backlog) :
    Dequeued queue (queue.dequeue backlog) := by
  unfold dequeue
  split
  next isEmpty => exact .empty isEmpty
  next head rest isCons =>
    split
    · exact .error
    · exact .taken isCons

/-- How taking the head of a queue ends, if only a call with a given id is taken. -/
inductive DequeuedIfHead (queue : Queue) (id : UInt64) :
    Except Backlog.Fault (Option Call) × Queue × Option Backlog → Prop where
  | taken {head : Call} {rest : List Call} {backlog : Option Backlog} :
      queue.calls = head :: rest → head.id = id →
      DequeuedIfHead queue id (.ok (some head), { queue with calls := rest }, backlog)
  | mismatch {backlog : Option Backlog} :
      (∀ head ∈ queue.calls.head?, head.id ≠ id) →
      DequeuedIfHead queue id (.ok none, queue, backlog)
  | error {fault : Backlog.Fault} {backlog : Option Backlog} :
      DequeuedIfHead queue id (.error fault, queue, backlog)

/-- Nothing is taken if the head is another call. -/
theorem dequeueIfHead_of_ne {queue : Queue} {id : UInt64} (backlog : Option Backlog)
    (differs : ∀ head, queue.peek = some head → head.id ≠ id) :
    queue.dequeueIfHead backlog id = (.ok none, queue, backlog) := by
  unfold dequeueIfHead
  split
  next head isHead => rw [if_neg (differs head isHead)]
  next => rfl

theorem dequeueIfHead_cases (queue : Queue) (backlog : Option Backlog) (id : UInt64) :
    DequeuedIfHead queue id (queue.dequeueIfHead backlog id) := by
  unfold dequeueIfHead
  split
  next head isHead =>
    split
    next same =>
      have dequeued := queue.dequeue_cases backlog
      generalize queue.dequeue backlog = result at dequeued
      cases dequeued with
      | @taken other rest _ isCons =>
          have headEq : other = head := by simpa [peek, isCons] using isHead
          exact .taken isCons (headEq ▸ same)
      | empty isEmpty => simp [peek, isEmpty] at isHead
      | error => exact .error
    next different =>
      apply DequeuedIfHead.mismatch
      intro other member
      cases member.symm.trans isHead
      exact different
  next isEmpty =>
    apply DequeuedIfHead.mismatch
    intro head member
    cases member.symm.trans isEmpty

end PeerCalls.Queue
