import PeerCalls.Proofs.Channel.Endings

/-!
# The call that a channel has in its hands

A channel has a copy of one call of its queue in its hands: the call in flight, which it is
about to take from the queue when it has ended. The call was the head of the queue when the
copy was made, but it may have left the queue since, if another channel works on the same
outbox. The channel then finds that its call is not the head, and tells and reports its end
nevertheless.
-/

namespace PeerCalls

namespace Channel

variable {channel : Channel} {call : Call}

/-- A call that is in flight, or that has ended and is about to leave the queue. -/
inductive HasInHand (channel : Channel) (call : Call) : Prop where
  | inFlight : channel.inFlight = some call → HasInHand channel call
  | dequeuing {reply : Reply} : channel.sender = .dequeuing call reply → HasInHand channel call

/-- Nothing is in flight while a call is about to leave the queue. -/
def HasOneCall (channel : Channel) : Prop :=
  ∀ call reply, channel.sender = .dequeuing call reply → channel.inFlight = none

theorem HasOneCall.of_isFree (isFree : channel.sender.IsFree) : channel.HasOneCall := by
  intro call reply ended
  rw [ended] at isFree
  exact isFree.elim

/-- With free hands, a channel has at most the call in flight. -/
theorem HasInHand.inFlight_of_isFree (inHand : channel.HasInHand call)
    (isFree : channel.sender.IsFree) : channel.inFlight = some call := by
  cases inHand with
  | inFlight flying => exact flying
  | dequeuing ended =>
      rw [ended] at isFree
      exact isFree.elim

theorem HasInHand.of_eq {other : Channel} (inHand : other.HasInHand call)
    (inFlight : other.inFlight = channel.inFlight) (sender : other.sender = channel.sender) :
    channel.HasInHand call := by
  cases inHand with
  | inFlight flying => exact .inFlight (inFlight ▸ flying)
  | dequeuing ended => exact .dequeuing (sender ▸ ended)

theorem not_hasInHand_start (contact : Contact) (side : Side) (call : Call) :
    ¬ (start contact side).HasInHand call := by
  intro inHand
  have flying := inHand.inFlight_of_isFree trivial
  cases flying

end Channel

namespace Station

variable {station before after first last : Station} {told : List Report} {call : Call}

/-! ## One call at a time -/

theorem Change.hasOneCall (change : Change before after told)
    (one : before.channel.HasOneCall) : after.channel.HasOneCall := by
  cases change with
  | hear | hand _ _ | endReceiving | foundClosed _ | misread _ | ignore _ _ | close _ _ _ =>
      exact one
  | handFails _ _ | endSending _ | goOn _ | wait _ | peek _ _ | takeReply _ _
  | dequeue _ _ | dequeueFails _ _ => exact .of_isFree trivial
  | retry _ _ _ _ _ | finish _ _ _ _ => exact fun _ _ _ => rfl
  | takeHead _ _ _ =>
      intro call reply ended
      cases ended
  | refuseHead peeks _ _ =>
      intro call reply ended
      cases peeks.symm.trans ended
  | invoked _ _ _ answered => cases answered <;> exact one
  | attach _ _ _ flying _ =>
      intro call reply ended
      cases flying.symm.trans (one call reply ended)

theorem Turn.hasOneCall (turn : Turn first last told) (one : first.channel.HasOneCall) :
    last.channel.HasOneCall :=
  turn.preserves Change.hasOneCall one

/-! ## Where the call comes from -/

/-- A call in the hands of a channel was there before, or it is the head of the queue. -/
def Supplies (before : Station) (call : Call) : Prop :=
  (∃ former, before.channel.HasInHand former ∧ call.reset = former.reset) ∨
    before.outbox.queue.Heads call

theorem Supplies.of_inHand (inHand : before.channel.HasInHand call) : before.Supplies call :=
  Or.inl ⟨call, inHand, rfl⟩

theorem Change.supplies (change : Change before after told)
    (inHand : after.channel.HasInHand call) : before.Supplies call := by
  cases change with
  | hear | hand _ _ | endReceiving | foundClosed _ | misread _ | ignore _ _ | close _ _ _ =>
      exact .of_inHand (inHand.of_eq rfl rfl)
  | handFails _ _ | endSending _ | goOn _ | wait _ | peek _ _ | takeReply _ _
  | dequeue _ _ | dequeueFails _ _ =>
      have flying := inHand.inFlight_of_isFree trivial
      exact .of_inHand (.inFlight flying)
  | retry _ _ _ _ _ =>
      cases inHand with
      | inFlight flying => cases flying
      | dequeuing ended => exact .of_inHand (.dequeuing ended)
  | @finish former _ _ flying _ _ =>
      cases inHand with
      | inFlight none => cases none
      | dequeuing ended =>
          cases ended
          exact Or.inl ⟨former, .inFlight flying, rfl⟩
  | @takeHead head _ _ isHead _ =>
      cases inHand with
      | inFlight flying =>
          cases flying
          exact Or.inr ⟨head, isHead, rfl⟩
      | dequeuing ended => cases ended
  | @refuseHead head _ _ peeks isHead _ =>
      cases inHand with
      | inFlight flying =>
          cases flying
          exact Or.inr ⟨head, isHead, rfl⟩
      | dequeuing ended => cases peeks.symm.trans ended
  | invoked _ _ _ answered => cases answered <;> exact .of_inHand (inHand.of_eq rfl rfl)
  | @attach _ _ former _ _ _ flying _ =>
      cases inHand with
      | inFlight attached =>
          cases attached
          exact Or.inl ⟨former, .inFlight flying, rfl⟩
      | dequeuing ended => exact .of_inHand (.dequeuing ended)

/-- During a turn after which all calls are still in the queue, the head stays the same. -/
theorem Turn.supplies (turn : Turn first last told)
    (same : last.outbox.queue.calls = first.outbox.queue.calls)
    (inHand : last.channel.HasInHand call) : first.Supplies call := by
  induction turn generalizing call with
  | done => exact .of_inHand inHand
  | @step first second last _ _ change turn ih =>
      obtain ⟨former, equal⟩ := change.removes
      obtain ⟨latter, equalRest⟩ := turn.removes
      -- What the parts of the turn take away is nothing.
      have lengths := congrArg List.length equal
      rw [equalRest, same, List.length_append, List.length_append] at lengths
      obtain rfl : former = [] := List.eq_nil_of_length_eq_zero (by omega)
      rw [List.nil_append] at equal
      rcases ih (same.trans equal) inHand with ⟨held, inHandThen, sameCall⟩ | heads
      · rcases change.supplies inHandThen with ⟨old, inHandBefore, sameOld⟩ | heads
        · exact Or.inl ⟨old, inHandBefore, sameCall.trans sameOld⟩
        · exact Or.inr (heads.reset_eq sameCall)
      · obtain ⟨head, isHead, sameCall⟩ := heads
        refine Or.inr ⟨head, ?_, sameCall⟩
        rw [Queue.peek, equal]
        exact isHead

/-! ## A call that is not the head any more -/

/-- How the end of a call goes out that the queue does not find at its head. -/
structure Missed (station : Station) (call : Call) (reply : Reply)
    (next : Station × List Report) : Prop where
  notFound : (station.outbox.queue.dequeueIfHead station.backlog call.id).1 = .ok none
  queue : next.1.outbox.queue = station.outbox.queue
  tells : station.outbox.waiters.Tells reply next.1.outbox.waiters
  told : next.2 = [.ended call reply]

theorem dequeueEnded_missed (reply : Reply)
    (differs : ∀ head, station.outbox.queue.peek = some head → head.id ≠ call.id) :
    station.Missed call reply (station.dequeueEnded call reply) := by
  have dequeued := Queue.dequeueIfHead_of_ne station.backlog differs
  simp only [dequeueEnded, dequeued]
  constructor
  · exact congrArg Prod.fst dequeued
  · rw [outbox_sendNext]
    rfl
  · rw [outbox_sendNext]
    exact station.outbox.waiters.tells_complete reply
  · rfl

/-- Nothing but the end of the call is reported. -/
theorem told_dequeueEnded (station : Station) (call : Call) (reply : Reply) :
    (station.dequeueEnded call reply).2 = [] ∨
      (station.dequeueEnded call reply).2 = [.ended call reply] := by
  unfold dequeueEnded
  split
  · exact Or.inl rfl
  · exact Or.inr rfl

/-- With a call in flight or not, the last part of a round leaves the hands as free as they
were. -/
theorem inFlight_of_hasInHand_sendNext {worked : Bool}
    (inHand : (station.sendNext worked).channel.HasInHand call) :
    station.channel.inFlight = some call := by
  unfold sendNext at inHand
  split at inHand
  · cases worked <;> exact inHand.inFlight_of_isFree trivial
  · exact inHand.inFlight_of_isFree trivial

/-- A channel whose call has ended has nothing in its hands afterwards. -/
theorem not_hasInHand_dequeueEnded (one : station.channel.HasOneCall) {reply : Reply}
    (ended : station.channel.sender = .dequeuing call reply) (other : Call) :
    ¬ (station.dequeueEnded call reply).1.channel.HasInHand other := by
  intro inHand
  have nothing := one call reply ended
  unfold dequeueEnded at inHand
  split at inHand
  · have flying := inHand.inFlight_of_isFree trivial
    cases nothing.symm.trans flying
  · have flying := inFlight_of_hasInHand_sendNext inHand
    cases nothing.symm.trans flying

end Station

end PeerCalls
