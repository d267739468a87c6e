import PeerCalls.Channel.Receiving
import PeerCalls.Channel.Sending
import PeerCalls.Proofs.Channel.Answers
import PeerCalls.Proofs.Channel.Link

/-!
# What a turn of a channel changes

A turn of one of the activities is a few changes one after the other: a frame is
handed over, then the next round begins, and so on. `Change` lists the changes with
what holds when they are made, and a `Turn` puts some of them together. What every
change preserves, a turn preserves.
-/

namespace PeerCalls

/-- What is executed because of a report. -/
def Report.invocation? : Report → Option Invocation
  | .ended _ _ => none
  | .execute invocation => some invocation

namespace Station

variable {station : Station}

/-- The sending activity goes on. -/
def IsSending (station : Station) : Prop := station.channel.sender ≠ .ended

/-- The sending activity has a frame in its hands. -/
def Holds (station : Station) (frame : Bytes) : Prop :=
  station.channel.sender = .sendingReply frame ∨ station.channel.sender = .sendingCall frame

/-- The link gives the next frame that has arrived. -/
def Receives (station : Station) (frame : Bytes) (link : Link) : Prop :=
  station.link.receive station.channel.side = (.frame frame, link)

/-- What the answers make of an invocation that arrives. -/
inductive Answered (station : Station) (invocation : Invocation) :
    Station → List Report → Prop where
  | execute : ¬ station.answers.IsKnown invocation.id →
      Answered station invocation
        { station with answers :=
          { station.answers with executing := invocation.id :: station.answers.executing } }
        [.execute invocation]
  | inProgress : invocation.id ∈ station.answers.executing →
      Answered station invocation station []
  | cached {reply : Reply} : invocation.id ∉ station.answers.executing →
      reply ∈ station.answers.replies → reply.id = invocation.id →
      Answered station invocation (station.pushReply reply) []
  | obsolete : invocation.id ∉ station.answers.executing →
      station.answers.isForgotten invocation.id = true →
      Answered station invocation
        (station.pushReply (Reply.failure invocation.id .obsoleteCommand "")) []

/-- A change that an activity of a channel makes, and what it tells others. -/
inductive Change (before : Station) : Station → List Report → Prop where
  /-- A signal is taken. -/
  | hear : Change before { before with outbox := { before.outbox with isSignaled := false } } []
  /-- The link takes the frame in hand. -/
  | hand {frame : Bytes} {link : Link} : before.Holds frame →
      before.link.send before.channel.side frame = (.ok (), link) →
      Change before { before with link } []
  | handFails {frame : Bytes} {fault : Link.Fault} {link : Link} : before.Holds frame →
      before.link.send before.channel.side frame = (.error fault, link) →
      Change before { before with link }.endSending []
  | endSending : before.IsSending → Change before before.endSending []
  /-- The next round begins. -/
  | goOn : before.IsSending → Change before (before.sendAt .looking) []
  | wait {wake : Time} : before.IsSending → Change before (before.sendAt (.waiting wake)) []
  /-- Nothing is in flight, so the queue comes next. -/
  | peek {worked : Bool} : before.IsSending → before.channel.inFlight = none →
      Change before (before.sendAt (.peeking worked)) []
  | takeReply {reply : Reply} {others : List Reply} : before.IsSending →
      before.channel.outbound = reply :: others →
      Change before
        ({ before with channel := { before.channel with outbound := others } }.sendAt
          (.sendingReply (before.replyFrame reply))) []
  /-- The call in flight has failed and stays in the queue. -/
  | retry {call : Call} {reply : Reply} {pause : Time} : before.IsSending →
      before.channel.inFlight = some call → before.replyInFlight call = some reply →
      reply.isRetryableFailure = true → call.isRetryable = true →
      Change before { before with channel :=
        { before.channel with inFlight := none, pausedUntil := some pause } } []
  /-- The call in flight has ended. -/
  | finish {call : Call} {reply : Reply} : before.IsSending →
      before.channel.inFlight = some call → before.replyInFlight call = some reply →
      (reply.isRetryableFailure && call.isRetryable) = false →
      Change before
        ({ before with channel := { before.channel with inFlight := none } }.sendAt
          (.dequeuing { call with reply := none } reply)) []
  | dequeue {call : Call} {reply : Reply} {taken : Option Call} {queue : Queue}
      {backlog : Option Backlog} :
      before.channel.sender = .dequeuing call reply →
      before.outbox.queue.dequeueIfHead before.backlog call.id = (.ok taken, queue, backlog) →
      Change before
        ({ before with
          outbox := ({ before.outbox with queue }.complete reply).2, backlog }.sendAt .looking)
        [.ended call reply]
  | dequeueFails {call : Call} {reply : Reply} {fault : Backlog.Fault} {queue : Queue}
      {backlog : Option Backlog} :
      before.channel.sender = .dequeuing call reply →
      before.outbox.queue.dequeueIfHead before.backlog call.id =
        (.error fault, queue, backlog) →
      Change before
        { before with outbox := { before.outbox with queue }, backlog }.endSending []
  | takeHead {head : Call} {worked : Bool} :
      before.channel.sender = .peeking worked → before.outbox.queue.peek = some head →
      head.invocation.encode.length ≤ before.link.maxFrameLength →
      Change before
        ({ before with channel :=
          { before.channel with
            inFlight := some (head.start before.now), pausedUntil := none } }.sendAt
          (.sendingCall head.invocation.encode)) []
  /-- The head is too long to be sent. -/
  | refuseHead {head : Call} {worked : Bool} {message : String} :
      before.channel.sender = .peeking worked → before.outbox.queue.peek = some head →
      before.link.maxFrameLength < head.invocation.encode.length →
      Change before
        { before with channel :=
          { before.channel with
            inFlight := some ((head.start before.now).withReply
              (Reply.failure head.id .other message))
            pausedUntil := none } } []
  | endReceiving : Change before before.endReceiving []
  | foundClosed {link : Link} :
      before.link.receive before.channel.side = (.closed, link) →
      Change before { before with link }.endReceiving []
  | misread {frame : Bytes} {link : Link} : before.Receives frame link →
      Change before { before with link }.endReceiving []
  | invoked {frame : Bytes} {link : Link} {invocation : Invocation} {after : Station}
      {told : List Report} : before.Receives frame link →
      FrameKind.peek frame = some .method → Invocation.decode frame = .ok invocation →
      Answered { before with link } invocation after told → Change before after told
  /-- A reply arrives for the call in flight. -/
  | attach {frame : Bytes} {link : Link} {call : Call} : before.Receives frame link →
      FrameKind.peek frame = some .result → peekId frame = some call.id →
      before.channel.inFlight = some call → call.reply = none →
      Change before
        { before with
          link
          channel := { before.channel with
            inFlight := some (call.withReply (replyIn call.id frame)) }
          outbox := before.outbox.signal } []
  /-- A reply arrives that nobody waits for. -/
  | ignore {frame : Bytes} {link : Link} : before.Receives frame link →
      FrameKind.peek frame = some .result → Change before { before with link } []
  | close : before.channel.sender = .ended → before.channel.receiver = .ended →
      before.channel.hasEnded = false →
      Change before
        { before with
          channel := { before.channel with hasEnded := true }
          link := before.link.close before.channel.side } []

/-- Some changes one after the other. -/
inductive Turn : Station → Station → List Report → Prop where
  | done {station : Station} : Turn station station []
  | step {first second last : Station} {told rest : List Report} :
      Change first second told → Turn second last rest → Turn first last (told ++ rest)

theorem Change.turn {after : Station} {told : List Report} (change : Change station after told) :
    Turn station after told := by
  have turn := Turn.step change .done
  rwa [List.append_nil] at turn

theorem Change.then {second last : Station} {told : List Report}
    (change : Change station second []) (turn : Turn second last told) :
    Turn station last told :=
  Turn.step change turn

/-- What every change preserves, a turn preserves. -/
theorem Turn.preserves {invariant : Station → Prop}
    (step : ∀ {before after told}, Change before after told → invariant before → invariant after)
    {first last : Station} {told : List Report} (turn : Turn first last told)
    (begins : invariant first) : invariant last := by
  induction turn with
  | done => exact begins
  | step change _ ih => exact ih (step change begins)

/-! ## What no turn changes -/

/-- Whose side a channel is on does not change, and neither does the limit of its link. -/
structure Keeps (before after : Station) : Prop where
  side : after.channel.side = before.channel.side
  limit : after.link.maxFrameLength = before.link.maxFrameLength

theorem Answered.keeps {station after : Station} {invocation : Invocation} {told : List Report}
    (answered : Answered station invocation after told) : station.Keeps after := by
  cases answered <;> exact ⟨rfl, rfl⟩

theorem Change.keeps {before after : Station} {told : List Report}
    (change : Change before after told) : before.Keeps after := by
  cases change with
  | hand _ sent => exact ⟨rfl, (Link.takes_of_send sent).limit⟩
  | handFails _ failed => exact ⟨rfl, (Link.loses_of_send_error failed).limit⟩
  | foundClosed received => exact ⟨rfl, (Link.loses_of_receive received).limit⟩
  | misread received | ignore received _ | attach received _ _ _ _ =>
      exact ⟨rfl, (Link.loses_of_receive received).limit⟩
  | invoked received _ _ answered =>
      exact ⟨answered.keeps.side, answered.keeps.limit.trans (Link.loses_of_receive received).limit⟩
  | close _ _ _ => exact ⟨rfl, (Link.loses_close _ _).limit⟩
  | _ => exact ⟨rfl, rfl⟩

theorem Turn.keeps {first last : Station} {told : List Report} (turn : Turn first last told) :
    first.Keeps last := by
  induction turn with
  | done => exact ⟨rfl, rfl⟩
  | step change _ ih =>
      exact ⟨ih.side.trans change.keeps.side, ih.limit.trans change.keeps.limit⟩

/-! ## The sending activity -/

theorem Holds.isSending {frame : Bytes} (holds : station.Holds frame) : station.IsSending := by
  intro ended
  rcases holds with holds | holds <;> cases holds.symm.trans ended

section Rounds

variable (sending : station.IsSending)
include sending

theorem endRound_turn (worked : Bool) : Turn station (station.endRound worked) [] := by
  cases worked with
  | false => exact (Change.wait sending).turn
  | true => exact (Change.goOn sending).turn

theorem sendNext_turn (worked : Bool) : Turn station (station.sendNext worked) [] := by
  simp only [sendNext]
  split
  · exact endRound_turn sending worked
  next idle =>
    have nothing : station.channel.inFlight = none := by simp at idle; exact idle.1
    exact (Change.peek sending nothing).turn

theorem finishCurrent_turn (worked : Bool) :
    Turn station (station.finishCurrent worked) [] := by
  simp only [finishCurrent]
  split
  · exact sendNext_turn sending worked
  next call flying =>
    split
    · exact sendNext_turn sending worked
    next reply found =>
      split
      next again =>
        rw [Bool.and_eq_true] at again
        refine (Change.retry sending flying found again.1 again.2).then (sendNext_turn ?_ true)
        exact sending
      next ended => exact (Change.finish sending flying found (Bool.eq_false_iff.mpr ended)).turn

theorem sendReplies_turn (worked : Bool) : Turn station (station.sendReplies worked) [] := by
  simp only [sendReplies]
  split
  next reply others waiting => exact (Change.takeReply sending waiting).turn
  next => exact finishCurrent_turn sending worked

theorem look_turn : Turn station station.look [] := by
  simp only [look]
  split
  · exact sendReplies_turn sending false
  · exact (Change.endSending sending).turn

theorem wakeUp_turn : Turn station station.wakeUp [] := by
  simp only [wakeUp]
  split
  · exact look_turn sending
  · exact Change.hear.then (look_turn sending)

end Rounds

theorem transmit_turn {frame : Bytes} {drops : Bool} {goOn : Station → Station}
    (holds : station.Holds frame)
    (goesOn : ∀ next : Station, next.IsSending → Turn next (goOn next) []) :
    Turn station (station.transmit frame drops goOn) [] := by
  simp only [transmit]
  split
  · exact goesOn station holds.isSending
  · split
    next link sent => exact (Change.hand holds sent).then (goesOn _ holds.isSending)
    next fault link failed => exact (Change.handFails holds failed).turn

/-- What comes after the call in flight does not depend on the stage before. -/
theorem sendNext_sendAt (station : Station) (stage : SendStage) (worked : Bool) :
    (station.sendAt stage).sendNext worked = station.sendNext worked := rfl

theorem dequeueEnded_turn {call : Call} {reply : Reply}
    (ended : station.channel.sender = .dequeuing call reply) :
    Turn station (station.dequeueEnded call reply).1 (station.dequeueEnded call reply).2 := by
  simp only [dequeueEnded]
  split
  next failed => exact (Change.dequeueFails ended failed).turn
  next taken queue backlog dequeued =>
    rw [← sendNext_sendAt _ .looking]
    refine Turn.step (Change.dequeue ended dequeued) (sendNext_turn ?_ true)
    simp [IsSending, sendAt]

theorem takeHead_turn {worked : Bool} (peeks : station.channel.sender = .peeking worked) :
    Turn station (station.takeHead worked) [] := by
  have sending : station.IsSending := fun ended => by cases peeks.symm.trans ended
  simp only [takeHead]
  split
  · exact endRound_turn sending worked
  next head isHead =>
    split
    next long =>
      refine (Change.refuseHead peeks isHead long).then (endRound_turn ?_ true)
      exact sending
    next fits => exact (Change.takeHead peeks isHead (Nat.le_of_not_lt fits)).turn

/-- A step of the sending activity is a turn. -/
theorem sendStep_turn {drops : Bool} {next : Station × List Report}
    (stepped : station.sendStep drops = some next) : Turn station next.1 next.2 := by
  simp only [sendStep] at stepped
  split at stepped
  next looks =>
    cases stepped
    exact look_turn fun ended => by cases looks.symm.trans ended
  next frame holds =>
    cases stepped
    exact transmit_turn (Or.inl holds) fun next sending => sendReplies_turn sending true
  next call reply ended => cases stepped; exact dequeueEnded_turn ended
  next worked peeks => cases stepped; exact takeHead_turn peeks
  next frame holds =>
    cases stepped
    exact transmit_turn (Or.inr holds) fun next sending => endRound_turn sending true
  next wake waits =>
    split at stepped
    · cases stepped
      exact wakeUp_turn fun ended => by cases waits.symm.trans ended
    · cases stepped
  next => cases stepped

/-! ## The receiving activity -/

theorem onInvocation_answered (station : Station) (invocation : Invocation) :
    Answered station invocation (station.onInvocation invocation).1
      (station.onInvocation invocation).2 := by
  have arrival := station.answers.arrive_cases invocation.id
  simp only [onInvocation]
  generalize station.answers.arrive invocation.id = result at arrival
  cases arrival with
  | inProgress running => exact .inProgress running
  | cached idle kept same => exact .cached idle kept same
  | obsolete idle forgotten => exact .obsolete idle forgotten
  | execute unknown => exact .execute unknown

/-- What a channel makes of a frame that does not end it. -/
inductive Handled (station : Station) (frame : Bytes) : Station → List Report → Prop where
  | invoked {invocation : Invocation} {after : Station} {told : List Report} :
      FrameKind.peek frame = some .method → Invocation.decode frame = .ok invocation →
      Answered station invocation after told → Handled station frame after told
  /-- The call in flight gets its reply. -/
  | attached {call : Call} : FrameKind.peek frame = some .result →
      peekId frame = some call.id → station.channel.inFlight = some call → call.reply = none →
      Handled station frame
        { station with
          channel := { station.channel with
            inFlight := some (call.withReply (replyIn call.id frame)) }
          outbox := station.outbox.signal } []
  /-- Nobody waits for the reply. -/
  | ignored {id : UInt64} : FrameKind.peek frame = some .result → peekId frame = some id →
      (∀ call, station.channel.inFlight = some call → call.id = id → call.reply ≠ none) →
      Handled station frame station []

theorem onFrame_cases {frame : Bytes} {next : Station × List Report}
    (read : station.onFrame frame = .ok next) : Handled station frame next.1 next.2 := by
  simp only [onFrame] at read
  split at read
  next isMethod =>
    simp only [onMethodFrame] at read
    split at read
    next invocation decoded =>
      cases read
      exact .invoked isMethod decoded (onInvocation_answered _ invocation)
    next => cases read
  next isResult =>
    simp only [onResultFrame] at read
    split at read
    next id peeked =>
      cases read
      simp only [attach]
      split
      next call flying =>
        split
        next matching =>
          rw [← matching.1] at peeked ⊢
          exact .attached isResult peeked flying matching.2
        next others =>
          refine .ignored isResult peeked fun other flies same unanswered => others ?_
          cases flying.symm.trans flies
          exact ⟨same, unanswered⟩
      next idle =>
        exact .ignored isResult peeked fun call flies => by cases idle.symm.trans flies
    next => cases read
  next => cases read

theorem Handled.change {frame : Bytes} {link : Link} {after : Station} {told : List Report}
    (handled : Handled { station with link } frame after told)
    (received : station.Receives frame link) : Change station after told := by
  cases handled with
  | invoked isMethod decoded answered => exact .invoked received isMethod decoded answered
  | attached isResult peeked flying unanswered =>
      exact .attach received isResult peeked flying unanswered
  | ignored isResult _ _ => exact .ignore received isResult

/-- What a step of the receiving activity does. -/
inductive Receipt (station : Station) : Station → List Report → Prop where
  | ended : Receipt station station.endReceiving []
  | foundClosed {link : Link} :
      station.link.receive station.channel.side = (.closed, link) →
      Receipt station { station with link }.endReceiving []
  | misread {frame : Bytes} {link : Link} : station.Receives frame link →
      Receipt station { station with link }.endReceiving []
  | handled {frame : Bytes} {link : Link} {after : Station} {told : List Report} :
      station.Receives frame link → Handled { station with link } frame after told →
      Receipt station after told

theorem receiveStep_cases {next : Station × List Report}
    (stepped : station.receiveStep = some next) : Receipt station next.1 next.2 := by
  simp only [receiveStep] at stepped
  split at stepped
  next => cases stepped
  next =>
    split at stepped
    · cases stepped
      exact .ended
    · split at stepped
      next => cases stepped
      next link closed => cases stepped; exact .foundClosed closed
      next frame link received =>
        split at stepped
        next read => cases stepped; exact .handled received (onFrame_cases read)
        next => cases stepped; exact .misread received

/-- A step of the receiving activity is a change. -/
theorem receiveStep_change {next : Station × List Report}
    (stepped : station.receiveStep = some next) : Change station next.1 next.2 := by
  obtain ⟨after, told⟩ := next
  cases receiveStep_cases stepped with
  | ended => exact .endReceiving
  | foundClosed closed => exact .foundClosed closed
  | misread received => exact .misread received
  | handled received handled => exact handled.change received

/-- Closing is a change. -/
theorem closeStep_change {next : Station} (stepped : station.closeStep = some next) :
    Change station next [] := by
  simp only [closeStep] at stepped
  split at stepped
  next sent received isLast => cases stepped; exact .close sent received isLast
  next => cases stepped

end Station

end PeerCalls
