import PeerCalls.Proofs.Channel.InFlight
import PeerCalls.Proofs.Channel.Waiters
import PeerCalls.Proofs.Frame.Accepting

/-!
# How a call leaves the queue

A call that has ended leaves the queue in a step of its own. If it leaves, then whoever
waits for it is told what the channel reports. If its removal fails, then nobody is told
and the call stays where it is. No other step of a channel takes a call from the queue or
reports the end of one.
-/

namespace PeerCalls

/-- The call that has ended according to a report, with its reply. -/
def Report.ended? : Report → Option (Call × Reply)
  | .ended call reply => some (call, reply)
  | .execute _ => none

/-- A reply after which a call is not sent again. -/
structure Call.EndsWith (call : Call) (reply : Reply) : Prop where
  settled : ¬ (reply.isRetryableFailure = true ∧ call.isRetryable = true)
  /-- A call that is sent again ends with a value or with one of three failures. -/
  verdict : call.policy = some .retry ∨ call.policy = some .latest →
    (∃ value, reply.verdict = .success value) ∨
    ∃ kind message, reply.verdict = .failure kind message ∧
      (kind = .remoteException ∨ kind = .obsoleteCommand ∨ kind = .other)

/-- The reply that a call carries, if any, is one to this call. -/
def Call.CarriesOwn (call : Call) : Prop := ∀ reply, call.reply = some reply → reply.id = call.id

theorem Call.EndsWith.of_settled {call : Call} {reply : Reply}
    (settled : (reply.isRetryableFailure && call.isRetryable) = false) : call.EndsWith reply where
  settled both := by simp [both] at settled
  verdict retried := by
    rw [Call.isRetryable_of_policy retried, Bool.and_true, Reply.isRetryableFailure,
      Reply.kind?] at settled
    cases ending : reply.verdict with
    | success value => exact Or.inl ⟨value, rfl⟩
    | failure kind message =>
        rw [ending] at settled
        refine Or.inr ⟨kind, message, rfl, ?_⟩
        cases kind with
        | timeout | queueOverflow | rpcError => cases settled
        | remoteException | obsoleteCommand | other => simp

/-! ## Waiters that are told -/

namespace Waiters

variable {waiters before after : Waiters}

/-- The waiter for a reply has it, and for all others nothing has changed. -/
structure Tells (reply : Reply) (before after : Waiters) : Prop where
  told : ∀ {number : Nat}, before.pendingFor? reply.id = some number →
    before.state number = .waiting → after.state number = .resolved reply
  kept : ∀ {number : Nat}, ¬ (before.pendingFor? reply.id = some number ∧
    before.state number = .waiting) → after.state number = before.state number

theorem state_modify_of_ne {number other : Nat} (different : other ≠ number)
    (change : Waiter → Waiter) :
    (waiters.modify number change).state other = waiters.state other := by
  simp [state, modify, Array.getElem?_modify, different.symm]

theorem state_modify_self {number : Nat} (change : Waiter → Waiter)
    (closed : change .closed = .closed) :
    (waiters.modify number change).state number = change (waiters.state number) := by
  simp only [state, modify, Array.getD_eq_getD_getElem?, Array.getElem?_modify, if_true]
  cases waiters.all[number]? with
  | none => exact closed.symm
  | some waiter => rfl

theorem tells_complete (waiters : Waiters) (reply : Reply) :
    Tells reply waiters (waiters.complete reply).2 := by
  simp only [complete]
  split
  next number found =>
    constructor
    · intro other pending waiting
      cases found.symm.trans pending
      exact (state_modify_self _ rfl).trans (by rw [waiting]; rfl)
    · intro other silent
      by_cases same : other = number
      · subst same
        exact (state_modify_self _ rfl).trans (if_neg fun waiting => silent ⟨found, waiting⟩)
      · exact state_modify_of_ne same _
  next missing =>
    constructor
    · intro number pending
      cases missing.symm.trans pending
    · exact fun _ => rfl

end Waiters

namespace Channel

variable {channel : Channel}

/-- A call that is about to leave the queue does so for good. -/
def Settles (channel : Channel) : Prop :=
  ∀ call reply, channel.sender = .dequeuing call reply → call.EndsWith reply

/-- What the channel knows as the reply to a call is one to this call. -/
structure Owns (channel : Channel) : Prop where
  inFlight : ∀ call, channel.inFlight = some call → call.CarriesOwn
  dequeuing : ∀ call reply, channel.sender = .dequeuing call reply → reply.id = call.id

theorem Settles.of_isFree (isFree : channel.sender.IsFree) : channel.Settles := by
  intro call reply ended
  rw [ended] at isFree
  exact isFree.elim

theorem Owns.of_isFree (isFree : channel.sender.IsFree)
    (inFlight : ∀ call, channel.inFlight = some call → call.CarriesOwn) : channel.Owns where
  inFlight
  dequeuing call reply ended := by
    rw [ended] at isFree
    exact isFree.elim

end Channel

namespace Station

variable {station before after first last : Station} {told : List Report}

/-! ## Steps that leave the queue alone -/

theorem outbox_endRound (station : Station) (worked : Bool) :
    (station.endRound worked).outbox = station.outbox := by
  cases worked <;> rfl

theorem outbox_sendNext (station : Station) (worked : Bool) :
    (station.sendNext worked).outbox = station.outbox := by
  simp only [sendNext]
  split
  · exact outbox_endRound station worked
  · rfl

theorem outbox_finishCurrent (station : Station) (worked : Bool) :
    (station.finishCurrent worked).outbox = station.outbox := by
  simp only [finishCurrent]
  split
  · exact outbox_sendNext station worked
  · split
    · exact outbox_sendNext station worked
    · split
      · exact outbox_sendNext _ true
      · rfl

theorem outbox_sendReplies (station : Station) (worked : Bool) :
    (station.sendReplies worked).outbox = station.outbox := by
  simp only [sendReplies]
  split
  · rfl
  · exact outbox_finishCurrent station worked

theorem outbox_look (station : Station) : station.look.outbox = station.outbox := by
  simp only [look]
  split
  · exact outbox_sendReplies station false
  · rfl

theorem queue_wakeUp (station : Station) : station.wakeUp.outbox.queue = station.outbox.queue := by
  simp only [wakeUp]
  split <;> rw [outbox_look]

theorem outbox_transmit {frame : Bytes} {drops : Bool} {goOn : Station → Station}
    (goesOn : ∀ next : Station, (goOn next).outbox = next.outbox) :
    (station.transmit frame drops goOn).outbox = station.outbox := by
  simp only [transmit]
  split
  · exact goesOn station
  · split
    · exact goesOn _
    · rfl

theorem outbox_takeHead (station : Station) (worked : Bool) :
    (station.takeHead worked).outbox = station.outbox := by
  simp only [takeHead]
  split
  · exact outbox_endRound station worked
  · split
    · exact outbox_endRound _ true
    · rfl

/-- The queue is the same, and no call has ended. -/
def KeepsCalls (before : Station) (next : Station × List Report) : Prop :=
  next.1.outbox.queue = before.outbox.queue ∧ next.2.filterMap Report.ended? = []

/-- Unless a call is about to leave the queue, sending leaves the queue alone. -/
theorem keepsCalls_sendStep {drops : Bool} {next : Station × List Report}
    (stepped : station.sendStep drops = some next)
    (unfinished : ∀ call reply, station.channel.sender ≠ .dequeuing call reply) :
    station.KeepsCalls next := by
  simp only [sendStep] at stepped
  split at stepped
  next => cases stepped; exact ⟨by rw [outbox_look], rfl⟩
  next =>
    cases stepped
    exact ⟨by rw [outbox_transmit fun next => outbox_sendReplies next true], rfl⟩
  next call reply ended => exact absurd ended (unfinished call reply)
  next => cases stepped; exact ⟨by rw [outbox_takeHead], rfl⟩
  next =>
    cases stepped
    exact ⟨by rw [outbox_transmit fun next => outbox_endRound next true], rfl⟩
  next =>
    split at stepped
    · cases stepped
      exact ⟨queue_wakeUp station, rfl⟩
    · cases stepped
  next => cases stepped

/-- Receiving leaves the queue alone. -/
theorem keepsCalls_receiveStep {next : Station × List Report}
    (stepped : station.receiveStep = some next) : station.KeepsCalls next := by
  obtain ⟨after, told⟩ := next
  cases receiveStep_cases stepped with
  | ended | foundClosed _ | misread _ => exact ⟨rfl, rfl⟩
  | handled _ handled =>
      cases handled with
      | invoked _ _ answered => cases answered <;> exact ⟨rfl, rfl⟩
      | attached _ _ _ _ | ignored _ _ _ => exact ⟨rfl, rfl⟩

/-- Closing leaves the queue alone. -/
theorem queue_closeStep {next : Station} (stepped : station.closeStep = some next) :
    next.outbox.queue = station.outbox.queue := by
  simp only [closeStep] at stepped
  split at stepped
  next => cases stepped; rfl
  next => cases stepped

/-! ## The step that takes a call from the queue -/

/-- How the end of a call that is the head of the queue goes out. -/
inductive Finished (station : Station) (call : Call) (reply : Reply) :
    Station × List Report → Prop where
  | left {head : Call} {rest : List Call} {next : Station} :
      (station.outbox.queue.dequeueIfHead station.backlog call.id).1 = .ok (some head) →
      station.outbox.queue.calls = head :: rest → call.reset = head.reset →
      next.outbox.queue = { station.outbox.queue with calls := rest } →
      station.outbox.waiters.Tells reply next.outbox.waiters →
      Finished station call reply (next, [.ended call reply])
  | stayed {fault : Backlog.Fault} {next : Station} :
      (station.outbox.queue.dequeueIfHead station.backlog call.id).1 = .error fault →
      station.outbox.queue.Heads call → next.outbox.queue = station.outbox.queue →
      next.outbox.waiters = station.outbox.waiters → Finished station call reply (next, [])

theorem dequeueEnded_finished {call : Call} (heads : station.outbox.queue.Heads call)
    (reply : Reply) : Finished station call reply (station.dequeueEnded call reply) := by
  have finds := heads.dequeueIfHead station.backlog
  have dequeued := station.outbox.queue.dequeueIfHead_cases station.backlog call.id
  simp only [dequeueEnded]
  generalize result : station.outbox.queue.dequeueIfHead station.backlog call.id = removal
    at finds dequeued
  cases dequeued with
  | @taken first rest backlog isCons _ =>
      obtain ⟨head, isHead, same⟩ := heads
      rw [Queue.peek, isCons, List.head?_cons, Option.some.injEq] at isHead
      subst isHead
      have tells := station.outbox.waiters.tells_complete reply
      refine .left (congrArg Prod.fst result) isCons same ?_ ?_ <;> rw [outbox_sendNext]
      · rfl
      · exact tells
  -- The head has the id that is asked for.
  | mismatch => exact absurd rfl finds
  | error => exact .stayed (congrArg Prod.fst result) heads rfl rfl

/-! ## With what a call leaves the queue -/

theorem Change.settles (change : Change before after told) (settles : before.channel.Settles) :
    after.channel.Settles := by
  cases change with
  | hear | hand _ _ | endReceiving | foundClosed _ | misread _ | ignore _ _ | close _ _ _
  | retry _ _ _ _ _ | refuseHead _ _ _ | attach _ _ _ _ _ => exact settles
  | handFails _ _ | endSending _ | goOn _ | wait _ | peek _ _ | takeReply _ _
  | dequeue _ _ | dequeueFails _ _ => exact .of_isFree trivial
  | finish _ _ _ settled =>
      intro call reply ended
      cases ended
      exact .of_settled settled
  | takeHead _ _ _ =>
      intro call reply ended
      cases ended
  | invoked _ _ _ answered => cases answered <;> exact settles

theorem Turn.settles (turn : Turn first last told) (settles : first.channel.Settles) :
    last.channel.Settles :=
  turn.preserves Change.settles settles

/-! ## Whose reply a call leaves with -/

theorem id_of_replyInFlight {call : Call} {reply : Reply} (own : call.CarriesOwn)
    (found : station.replyInFlight call = some reply) : reply.id = call.id := by
  simp only [replyInFlight] at found
  split at found
  next carried => cases found; exact own _ carried
  next =>
    split at found
    next =>
      split at found
      · cases found
        rfl
      · cases found
    next => cases found

/-- Whatever a frame holds that names a call, it becomes a reply to this call. -/
theorem id_replyIn {id : UInt64} {frame : Bytes} (peeked : peekId frame = some id) :
    (replyIn id frame).id = id := by
  simp only [replyIn]
  split
  next decoded => exact Option.some.inj ((Reply.peekId_of_decode decoded).symm.trans peeked)
  next => rfl

theorem Change.owns (change : Change before after told)
    (queued : ∀ call ∈ before.outbox.queue.calls, call.CarriesOwn)
    (owns : before.channel.Owns) : after.channel.Owns := by
  cases change with
  | hear | hand _ _ | endReceiving | foundClosed _ | misread _ | ignore _ _ | close _ _ _ =>
      exact ⟨owns.inFlight, owns.dequeuing⟩
  | handFails _ _ | endSending _ | goOn _ | wait _ | peek _ _ | takeReply _ _
  | dequeue _ _ | dequeueFails _ _ => exact .of_isFree trivial owns.inFlight
  | retry _ _ _ _ _ => exact ⟨fun _ flying => (by cases flying), owns.dequeuing⟩
  | @finish call reply _ flying found _ =>
      have own : reply.id = call.id := id_of_replyInFlight (owns.inFlight call flying) found
      constructor
      · intro other flying
        cases flying
      · intro other otherReply ended
        cases ended
        exact own
  | @takeHead head _ _ isHead _ =>
      constructor
      · intro call flying
        cases flying
        exact queued head (List.mem_of_mem_head? isHead)
      · intro call reply ended
        cases ended
  | refuseHead _ _ _ =>
      refine ⟨?_, owns.dequeuing⟩
      intro call flying reply carried
      cases flying
      cases carried
      rfl
  | invoked _ _ _ answered => cases answered <;> exact ⟨owns.inFlight, owns.dequeuing⟩
  | attach _ _ peeked _ _ =>
      refine ⟨?_, owns.dequeuing⟩
      intro call flying reply carried
      cases flying
      cases carried
      exact id_replyIn peeked

theorem Turn.owns (turn : Turn first last told)
    (queued : ∀ call ∈ first.outbox.queue.calls, call.CarriesOwn)
    (owns : first.channel.Owns) : last.channel.Owns := by
  -- `Turn.preserves` does not apply: calls leave the queue, so `queued` changes with each step.
  induction turn with
  | done => exact owns
  | step change _ ih =>
      obtain ⟨removed, equal⟩ := change.removes
      apply ih _ (change.owns queued owns)
      intro call member
      apply queued
      rw [equal]
      exact List.mem_append_right removed member

end Station

end PeerCalls
