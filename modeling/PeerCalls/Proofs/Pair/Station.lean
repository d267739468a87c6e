import PeerCalls.Proofs.Channel.Outbox
import PeerCalls.Proofs.Channel.Turns
import PeerCalls.Proofs.Channel.Waiters
import PeerCalls.Proofs.Pair.History
import PeerCalls.Proofs.Queue

/-!
# What a channel works on is justified

A station between two peers is justified by their history if everything on it is: the
calls in its hands came into the queue, replies were given or are due to a failure on
this side, and frames on the link belong to calls that are due or to replies. Every
change preserves this, and so does every turn.
-/

namespace PeerCalls

/-- A call that a peer may issue: it has a frame, and no attempt has a reply yet. -/
structure Call.IsFresh (call : Call) : Prop where
  admissible : call.invocation.Admissible
  unanswered : call.reply = none

/-- What the sending activity of a side has in its hands is justified. The frame of a
reply need be only if the link takes it. -/
def History.AtStage (history : History) (side : Side) (limit : Nat) : SendStage → Prop
  | .dequeuing call reply => history.Issued side call ∧ history.Ends side call reply ∧
      (reply.isRetryableFailure && call.isRetryable) = false
  | .sendingCall frame => ∃ call, history.Due side call ∧ frame = call.invocation.encode
  | .sendingReply frame => frame.length ≤ limit →
      ∃ reply, history.Answered side.other reply ∧ frame = reply.encode
  | .looking | .peeking _ | .waiting _ | .ended => True

structure Channel.Justified (history : History) (limit : Nat) (channel : Channel) : Prop where
  inFlight : ∀ call, channel.inFlight = some call → history.Issued channel.side call
  reply : ∀ call reply, channel.inFlight = some call → call.reply = some reply →
    history.Ends channel.side call reply
  sender : history.AtStage channel.side limit channel.sender
  outbound : ∀ reply ∈ channel.outbound, history.Answered channel.side.other reply

structure Outbox.Justified (history : History) (side : Side) (outbox : Outbox) : Prop where
  queue : ∃ removed, history.calls side = removed ++ outbox.queue.calls ∧
    ∀ call ∈ removed, history.Settled side call.id
  waiters : outbox.waiters.IsSound
  replies : ∀ number reply, outbox.waiters.state number = .resolved reply →
    ∃ call, history.Issued side call ∧ history.Ends side call reply

structure Answers.Justified (history : History) (side : Side) (answers : Answers) : Prop where
  same : history.answers side = answers
  replies : ∀ reply ∈ answers.replies, history.Answered side.other reply

structure Link.Justified (history : History) (link : Link) : Prop where
  limit : history.limit link.maxFrameLength
  frames : ∀ side, ∀ frame ∈ (link.atSide side).inbox, history.Arrives side frame

/-- Everything on a station is justified. -/
structure Station.Justified (history : History) (station : Station) : Prop where
  channel : station.channel.Justified history station.link.maxFrameLength
  outbox : station.outbox.Justified history station.channel.side
  answers : station.answers.Justified history station.channel.side
  link : station.link.Justified history
  calls : ∀ side, ∀ call ∈ history.calls side, call.IsFresh

/-- What a channel of a side reports is justified. -/
def Report.Justified (history : History) (side : Side) : Report → Prop
  | .ended call reply => history.Issued side call ∧ history.Ends side call reply
  | .execute invocation => ∃ call, history.Due side.other call ∧ history.Fits call ∧
      call.invocation = invocation

/-! ## Histories that go on -/

namespace History.Continues

variable {before after : History} (continues : Continues before after)
include continues

theorem atStage {side : Side} {limit : Nat} {stage : SendStage}
    (justified : before.AtStage side limit stage) : after.AtStage side limit stage := by
  cases stage with
  | dequeuing call reply =>
      obtain ⟨issued, ends, isLast⟩ := justified
      exact ⟨continues.issued issued, continues.ends ends, isLast⟩
  | sendingCall frame =>
      obtain ⟨call, due, equal⟩ := justified
      exact ⟨call, continues.due due, equal⟩
  | sendingReply frame =>
      intro fits
      obtain ⟨reply, answered, equal⟩ := justified fits
      exact ⟨reply, continues.answered answered, equal⟩
  | looking | peeking _ | waiting _ | ended => trivial

theorem channel {limit : Nat} {channel : Channel} (justified : channel.Justified before limit) :
    channel.Justified after limit where
  inFlight call flying := continues.issued (justified.inFlight call flying)
  reply call reply flying replied := continues.ends (justified.reply call reply flying replied)
  sender := continues.atStage justified.sender
  outbound reply member := continues.answered (justified.outbound reply member)

/-- An outbox stays justified as long as no call comes into its queue. -/
theorem outbox {side : Side} {outbox : Outbox} (justified : outbox.Justified before side)
    (same : after.calls side = before.calls side) : outbox.Justified after side where
  queue := by
    obtain ⟨removed, equal, settled⟩ := justified.queue
    exact ⟨removed, same.trans equal, fun call member => continues.settled (settled call member)⟩
  waiters := justified.waiters
  replies number reply resolved := by
    obtain ⟨call, issued, ends⟩ := justified.replies number reply resolved
    exact ⟨call, continues.issued issued, continues.ends ends⟩

theorem link {link : Link} (justified : link.Justified before) : link.Justified after where
  limit := continues.limit justified.limit
  frames side frame member := continues.arrives (justified.frames side frame member)

theorem report {side : Side} {report : Report} (justified : report.Justified before side) :
    report.Justified after side := by
  cases report with
  | ended call reply => exact ⟨continues.issued justified.1, continues.ends justified.2⟩
  | execute invocation =>
      obtain ⟨call, due, fits, equal⟩ := justified
      exact ⟨call, continues.due due, continues.fits fits, equal⟩

end History.Continues

/-! ## Frames -/

namespace History

variable {history : History} {side : Side} {frame : Bytes}

/-- A call in a frame that arrives came into the queue of the other side. -/
theorem Arrives.call {invocation : Invocation} (arrives : history.Arrives side frame)
    (fresh : ∀ side, ∀ call ∈ history.calls side, call.IsFresh)
    (isMethod : FrameKind.peek frame = some .method)
    (decoded : Invocation.decode frame = .ok invocation) :
    ∃ call, history.Due side.other call ∧ history.Fits call ∧ call.invocation = invocation := by
  rcases arrives with ⟨call, due, fits, rfl⟩ | ⟨reply, _, rfl⟩
  · obtain ⟨earlier, later, equal, _⟩ := id due
    have member : call ∈ history.calls side.other := by simp [equal]
    rw [Invocation.decode_encode (fresh _ call member).admissible] at decoded
    cases decoded
    exact ⟨call, due, fits, rfl⟩
  · rw [Reply.peek_encode] at isMethod
    cases isMethod

/-- A reply in a frame that arrives is one that the other side has given. -/
theorem Arrives.reply {id : UInt64} (arrives : history.Arrives side frame)
    (isResult : FrameKind.peek frame = some .result) (peeked : peekId frame = some id) :
    (Station.replyIn id frame).id = id ∧ history.Answered side (Station.replyIn id frame) := by
  rcases arrives with ⟨call, _, _, rfl⟩ | ⟨reply, answered, rfl⟩
  · rw [Invocation.peek_encode] at isResult
    cases isResult
  · rw [Reply.peekId_encode] at peeked
    rw [Station.replyIn, Reply.decode_encode answered.fits]
    exact ⟨Option.some.inj peeked, answered⟩

/-- The failure that is sent instead of a reply that is too long is a reply that the
other side has given too, if it is not too long itself. -/
theorem Answered.instead {reply : Reply} {limit : Nat} {size : String}
    (answered : history.Answered side reply) (long : limit < reply.encode.length)
    (fits : (Reply.failure reply.id .remoteException
      ("result of " ++ size ++ " bytes exceeds the maximum frame length")).encode.length ≤ limit) :
    history.Answered side (Reply.failure reply.id .remoteException
      ("result of " ++ size ++ " bytes exceeds the maximum frame length")) := by
  obtain ⟨id, verdict⟩ := reply
  obtain ⟨isOver, verdictFits, backed⟩ := answered
  rw [Reply.length_encode_failure] at fits
  -- It is shorter than the reply, so its message fits if that of the reply does.
  cases verdict with
  | success value =>
      have length := Reply.length_encode_success id value
      simp only [Reply.success] at length
      simp only [Verdict.Fits] at verdictFits
      refine ⟨isOver, ?_, ?_⟩
      · simp only [Reply.failure, Verdict.Fits]
        omega
      · obtain ⟨call, member, same, concluded⟩ := backed
        exact ⟨call, member, same, _, concluded⟩
  | failure kind message =>
      have length := Reply.length_encode_failure id kind message
      simp only [Reply.failure] at length
      simp only [Verdict.Fits] at verdictFits
      cases kind with
      | remoteException =>
          refine ⟨isOver, ?_, backed⟩
          simp only [Reply.failure, Verdict.Fits]
          omega
      | obsoleteCommand =>
          -- Nothing is said instead of a reply that says so little.
          cases backed
          have name : (Bytes.ofText FailureKind.obsoleteCommand.name).length = 17 := by decide
          have nameInstead : (Bytes.ofText FailureKind.remoteException.name).length = 15 := by
            decide
          have start : (Bytes.ofText "result of ").length = 10 := by decide
          have none : (Bytes.ofText "").length = 0 := by decide
          rw [Bytes.length_ofText_append, Bytes.length_ofText_append] at fits
          omega
      | timeout | queueOverflow | rpcError | other => exact backed.elim

end History

end PeerCalls
