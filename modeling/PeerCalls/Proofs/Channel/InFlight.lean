import PeerCalls.Proofs.Channel.Turns
import PeerCalls.Proofs.Queue

/-!
# The call in flight is the head of the queue

A channel works on a copy of the head of the queue, which others may meanwhile extend
at its end. As long as nobody else takes calls, the copy belongs to the head in every
stage, and when its call has ended it is this call that leaves the queue.
-/

namespace PeerCalls

/-- A call is the head of a queue, up to the state of its attempt. -/
def Queue.Heads (queue : Queue) (call : Call) : Prop :=
  ∃ head, queue.peek = some head ∧ call.reset = head.reset

/-- The sending activity has nothing of a queue in its hands. -/
def SendStage.IsFree : SendStage → Prop
  | .looking | .sendingReply _ | .peeking _ | .waiting _ | .ended => True
  | .dequeuing _ _ | .sendingCall _ => False

/-- What a channel has in its hands belongs to the head of a queue. -/
structure Channel.Follows (channel : Channel) (queue : Queue) : Prop where
  inFlight : ∀ call, channel.inFlight = some call → queue.Heads call
  dequeuing : ∀ call reply, channel.sender = .dequeuing call reply →
    channel.inFlight = none ∧ queue.Heads call
  sendingCall : ∀ frame, channel.sender = .sendingCall frame →
    ∃ head, queue.peek = some head ∧ frame = head.invocation.encode

namespace Queue.Heads

variable {queue : Queue} {call : Call}

/-- The queue finds a call that is its head. -/
theorem dequeueIfHead (heads : queue.Heads call) (backlog : Option Backlog) :
    (queue.dequeueIfHead backlog call.id).1 ≠ .ok none := by
  obtain ⟨head, isHead, same⟩ := heads
  have dequeued := queue.dequeueIfHead_cases backlog call.id
  generalize queue.dequeueIfHead backlog call.id = result at dequeued
  cases dequeued with
  | taken | error => simp
  | mismatch different =>
      exact absurd (Call.id_eq_of_reset_eq same).symm (different head isHead)

/-- Calls that come to the end do not change the head. -/
theorem append (heads : queue.Heads call) (added : List Call) :
    Queue.Heads { queue with calls := queue.calls ++ added } call := by
  obtain ⟨head, isHead, same⟩ := heads
  refine ⟨head, ?_, same⟩
  rw [peek] at isHead ⊢
  rw [List.head?_append, isHead, Option.some_or]

theorem reset_eq {other : Call} (heads : queue.Heads call) (same : other.reset = call.reset) :
    queue.Heads other := by
  obtain ⟨head, isHead, equal⟩ := heads
  exact ⟨head, isHead, same.trans equal⟩

end Queue.Heads

namespace Channel.Follows

variable {channel : Channel} {queue : Queue}

theorem stop (follows : channel.Follows queue) : channel.stop.Follows queue :=
  ⟨follows.inFlight, follows.dequeuing, follows.sendingCall⟩

theorem append (follows : channel.Follows queue) (added : List Call) :
    channel.Follows { queue with calls := queue.calls ++ added } where
  inFlight call flying := (follows.inFlight call flying).append added
  dequeuing call reply ended :=
    ⟨(follows.dequeuing call reply ended).1, (follows.dequeuing call reply ended).2.append added⟩
  sendingCall frame sending := by
    obtain ⟨head, isHead, equal⟩ := follows.sendingCall frame sending
    refine ⟨head, ?_, equal⟩
    rw [Queue.peek] at isHead ⊢
    rw [List.head?_append, isHead, Option.some_or]

/-- With free hands, only what is in flight belongs to the queue. -/
theorem of_isFree (isFree : channel.sender.IsFree)
    (inFlight : ∀ call, channel.inFlight = some call → queue.Heads call) :
    channel.Follows queue where
  inFlight
  dequeuing call reply ended := by
    rw [ended] at isFree
    exact isFree.elim
  sendingCall frame sending := by
    rw [sending] at isFree
    exact isFree.elim

theorem start (contact : Contact) (side : Side) (queue : Queue) :
    (Channel.start contact side).Follows queue :=
  of_isFree trivial fun _ flying => by cases flying

end Channel.Follows

namespace Station

/-- What the channel has in its hands belongs to the head of its queue. -/
def Follows (station : Station) : Prop := station.channel.Follows station.outbox.queue

variable {before after first last : Station} {told : List Report}

theorem Follows.of_eq (follows : before.Follows)
    (inFlight : after.channel.inFlight = before.channel.inFlight)
    (sender : after.channel.sender = before.channel.sender)
    (queue : after.outbox.queue = before.outbox.queue) : after.Follows := by
  rw [Follows, queue]
  refine ⟨?_, ?_, ?_⟩
  · rw [inFlight]
    exact follows.inFlight
  · rw [inFlight, sender]
    exact follows.dequeuing
  · rw [sender]
    exact follows.sendingCall

theorem Answered.follows {invocation : Invocation} (answered : Answered before invocation after told)
    (follows : before.Follows) : after.Follows := by
  cases answered <;> exact follows.of_eq rfl rfl rfl

/-- Every change keeps to the head of the queue. -/
theorem Change.follows (change : Change before after told) (follows : before.Follows) :
    after.Follows := by
  cases change with
  | hear | hand _ _ | endReceiving | foundClosed _ | misread _ | ignore _ _ | close _ _ _ =>
      exact follows.of_eq rfl rfl rfl
  | handFails _ _ | endSending _ | goOn _ | wait _ | peek _ _ | takeReply _ _ =>
      exact .of_isFree trivial follows.inFlight
  | retry _ flying _ _ _ =>
      refine ⟨fun _ flying => (by cases flying), ?_, follows.sendingCall⟩
      intro call reply ended
      exact ⟨rfl, (follows.dequeuing call reply ended).2⟩
  | @finish call reply _ flying _ _ =>
      refine ⟨fun _ flying => (by cases flying), ?_, fun _ sending => (by cases sending)⟩
      intro other otherReply ended
      cases ended
      exact ⟨rfl, (follows.inFlight call flying).reset_eq rfl⟩
  | dequeue ended dequeued =>
      have idle := (follows.dequeuing _ _ ended).1
      exact .of_isFree trivial fun _ flying => by cases idle.symm.trans flying
  | dequeueFails ended failed =>
      have idle := (follows.dequeuing _ _ ended).1
      exact .of_isFree trivial fun _ flying => by cases idle.symm.trans flying
  | @takeHead head worked peeks isHead fits =>
      refine ⟨?_, fun _ _ ended => (by cases ended), ?_⟩
      · intro call flying
        cases flying
        exact ⟨head, isHead, rfl⟩
      · intro frame sending
        cases sending
        exact ⟨head, isHead, rfl⟩
  | @refuseHead head worked message peeks isHead long =>
      refine ⟨?_, ?_, ?_⟩
      · intro call flying
        cases flying
        exact ⟨head, isHead, rfl⟩
      · intro call reply ended
        cases peeks.symm.trans ended
      · intro frame sending
        cases peeks.symm.trans sending
  | invoked _ _ _ answered => exact answered.follows follows
  | @attach frame link call _ _ _ flying unanswered =>
      refine ⟨?_, ?_, follows.sendingCall⟩
      · intro other attached
        cases attached
        exact (follows.inFlight call flying).reset_eq rfl
      · intro other reply ended
        cases flying.symm.trans (follows.dequeuing other reply ended).1

theorem Turn.follows (turn : Turn first last told) (follows : first.Follows) : last.Follows :=
  turn.preserves Change.follows follows

/-! ## What leaves the queue -/

/-- Calls leave a queue from its head, and nothing else of it changes. -/
theorem Change.queue (change : Change before after told) :
    ∃ removed, before.outbox.queue =
      { after.outbox.queue with calls := removed ++ after.outbox.queue.calls } := by
  cases change with
  | @dequeue call _ _ _ _ _ dequeued =>
      have result := before.outbox.queue.dequeueIfHead_cases before.backlog call.id
      rw [dequeued] at result
      cases result with
      | @taken head rest _ isHead same => exact ⟨[head], by simp [sendAt, Outbox.complete, ← isHead]⟩
      | mismatch => exact ⟨[], rfl⟩
  | @dequeueFails call _ _ _ _ _ failed =>
      have result := before.outbox.queue.dequeueIfHead_cases before.backlog call.id
      rw [failed] at result
      cases result
      exact ⟨[], rfl⟩
  | invoked _ _ _ answered => cases answered <;> exact ⟨[], rfl⟩
  | _ => exact ⟨[], rfl⟩

theorem Turn.queue (turn : Turn first last told) :
    ∃ removed, first.outbox.queue =
      { last.outbox.queue with calls := removed ++ last.outbox.queue.calls } := by
  induction turn with
  | done => exact ⟨[], rfl⟩
  | step change _ ih =>
      obtain ⟨former, equal⟩ := change.queue
      obtain ⟨latter, equalRest⟩ := ih
      exact ⟨former ++ latter, by rw [equal, equalRest, List.append_assoc]⟩

theorem Change.removes (change : Change before after told) :
    ∃ removed, before.outbox.queue.calls = removed ++ after.outbox.queue.calls := by
  obtain ⟨removed, same⟩ := change.queue
  exact ⟨removed, congrArg Queue.calls same⟩

theorem Turn.removes (turn : Turn first last told) :
    ∃ removed, first.outbox.queue.calls = removed ++ last.outbox.queue.calls := by
  obtain ⟨removed, same⟩ := turn.queue
  exact ⟨removed, congrArg Queue.calls same⟩

/-- A channel whose sending activity has ended leaves its queue alone. -/
theorem Change.of_ended (change : Change before after told)
    (ended : before.channel.sender = .ended) :
    after.channel.sender = .ended ∧ after.outbox.queue = before.outbox.queue := by
  cases change with
  | hear | endReceiving | foundClosed _ | misread _ | ignore _ _ | close _ _ _
  | attach _ _ _ _ _ => exact ⟨ended, rfl⟩
  | invoked _ _ _ answered => cases answered <;> exact ⟨ended, rfl⟩
  | hand holds _ | handFails holds _ => exact absurd ended holds.isSending
  | endSending sending | goOn sending | wait sending | peek sending _ | takeReply sending _
  | retry sending _ _ _ _ | finish sending _ _ _ => exact absurd ended sending
  | dequeue stage _ | dequeueFails stage _ | takeHead stage _ _ | refuseHead stage _ _ =>
      cases stage.symm.trans ended

theorem Turn.of_ended (turn : Turn first last told) (ended : first.channel.sender = .ended) :
    last.outbox.queue = first.outbox.queue := by
  induction turn with
  | done => rfl
  | step change _ ih =>
      have stays := change.of_ended ended
      exact (ih stays.1).trans stays.2

/-- A channel that has ended stays ended. -/
theorem Change.hasEnded (change : Change before after told)
    (ended : before.channel.hasEnded = true) : after.channel.hasEnded = true := by
  cases change with
  | invoked _ _ _ answered => cases answered <;> exact ended
  | close _ _ _ => rfl
  | _ => exact ended

theorem Turn.hasEnded (turn : Turn first last told) (ended : first.channel.hasEnded = true) :
    last.channel.hasEnded = true :=
  turn.preserves Change.hasEnded ended

/-- A channel ends after its sending activity. -/
theorem Change.closes (change : Change before after told)
    (closes : before.channel.hasEnded = true → before.channel.sender = .ended)
    (hasEnded : after.channel.hasEnded = true) : after.channel.sender = .ended := by
  cases change with
  | hear | endReceiving | foundClosed _ | misread _ | ignore _ _ | attach _ _ _ _ _ =>
      exact closes hasEnded
  | close ended _ _ => exact ended
  | invoked _ _ _ answered => cases answered <;> exact closes hasEnded
  | handFails _ _ | endSending _ | dequeueFails _ _ => rfl
  | hand holds _ => exact absurd (closes hasEnded) holds.isSending
  | goOn sending | wait sending | peek sending _ | takeReply sending _
  | retry sending _ _ _ _ | finish sending _ _ _ => exact absurd (closes hasEnded) sending
  | dequeue stage _ | takeHead stage _ _ | refuseHead stage _ _ =>
      cases stage.symm.trans (closes hasEnded)

theorem Turn.closes (turn : Turn first last told)
    (closes : first.channel.hasEnded = true → first.channel.sender = .ended) :
    last.channel.hasEnded = true → last.channel.sender = .ended :=
  turn.preserves Change.closes closes

end Station

end PeerCalls
