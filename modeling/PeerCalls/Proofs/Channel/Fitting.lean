import PeerCalls.Proofs.Channel.Rest
import PeerCalls.Proofs.Frame.Reading

/-!
# What is sent fits the link

A link takes frames up to a limit. A call whose frame is longer is never sent: it fails at
once, leaves the queue, and the next call follows. A reply whose frame is longer is replaced
by a failure. The frame of that failure has a length of its own, so it fits unless the link
takes next to nothing.
-/

namespace PeerCalls

namespace Link

/-- A frame that fits is refused because an end of the link is not there any more. -/
theorem isGone_of_send_error {link next : Link} {side : Side} {frame : Bytes} {fault : Fault}
    (fits : frame.length ≤ link.maxFrameLength)
    (failed : link.send side frame = (.error fault, next)) :
    link.isOpen side = false ∨ (link.atSide side.other).isListening = false := by
  cases isOpen : link.isOpen side with
  | false => exact Or.inl rfl
  | true =>
    cases isListening : (link.atSide side.other).isListening with
    | false => exact Or.inr rfl
    | true =>
      rw [send_of_isListening fits isOpen isListening] at failed
      cases failed

end Link

namespace Reply

/-- What is said instead of a reply that is too long. -/
def tooLong (reply : Reply) : Reply :=
  .failure reply.id .remoteException
    ("result of " ++ toString reply.encode.length ++ " bytes exceeds the maximum frame length")

/-- The frame that is sent for a reply. -/
def frameWithin (limit : Nat) (reply : Reply) : Bytes :=
  if reply.encode.length ≤ limit then reply.encode else reply.tooLong.encode

theorem length_encode_tooLong (reply : Reply) :
    reply.tooLong.encode.length = 80 + (toString reply.encode.length).utf8ByteSize := by
  have name : (Bytes.ofText FailureKind.remoteException.name).length = 15 := by decide
  have start : (Bytes.ofText "result of ").length = 10 := by decide
  have rest : (Bytes.ofText " bytes exceeds the maximum frame length").length = 39 := by decide
  rw [tooLong, length_encode_failure, Bytes.length_ofText_append, Bytes.length_ofText_append,
    Bytes.length_ofText (toString _), name, start, rest]
  omega

/-- Whatever is sent for a reply is a reply. -/
theorem peek_frameWithin (reply : Reply) (limit : Nat) :
    FrameKind.peek (reply.frameWithin limit) = some .result := by
  rw [frameWithin]
  split
  · exact reply.peek_encode
  · exact reply.tooLong.peek_encode

/-- The frame that is sent for a reply fits if the reply fits or the failure does. -/
theorem length_frameWithin_le_iff {limit : Nat} {reply : Reply} :
    (reply.frameWithin limit).length ≤ limit ↔
      reply.encode.length ≤ limit ∨
        80 + (toString reply.encode.length).utf8ByteSize ≤ limit := by
  rw [← length_encode_tooLong, frameWithin]
  split
  next fits => simp [fits]
  next long => simp [long]

end Reply

/-- What a call gets that is too long to be sent. -/
def Call.tooLong (call : Call) : Reply :=
  .failure call.id .other
    ("call of " ++ toString call.invocation.encode.length ++
      " bytes exceeds the maximum frame length")

/-- The sending activity goes on, with no frame in its hands. -/
def SendStage.HasNoFrame : SendStage → Prop
  | .looking | .dequeuing _ _ | .peeking _ | .waiting _ => True
  | .sendingReply _ | .sendingCall _ | .ended => False

/-- What a channel has in its hands, if the link takes frames up to a limit. -/
structure Channel.SendsWithin (limit : Nat) (channel : Channel) : Prop where
  call : ∀ frame, channel.sender = .sendingCall frame → frame.length ≤ limit
  reply : ∀ frame, channel.sender = .sendingReply frame →
    ∃ reply : Reply, frame = reply.frameWithin limit
  inFlight : ∀ call, channel.inFlight = some call → limit < call.invocation.encode.length →
    ∃ message, call.reply = some (.failure call.id .other message)
  ended : ∀ call reply, channel.sender = .dequeuing call reply →
    limit < call.invocation.encode.length → ∃ message, reply = .failure call.id .other message

namespace Channel.SendsWithin

variable {limit : Nat} {channel : Channel}

theorem of_eq {changed : Channel} (sends : channel.SendsWithin limit)
    (inFlight : changed.inFlight = channel.inFlight) (sender : changed.sender = channel.sender) :
    changed.SendsWithin limit := by
  refine ⟨?_, ?_, ?_, ?_⟩
  · rw [sender]
    exact sends.call
  · rw [sender]
    exact sends.reply
  · rw [inFlight]
    exact sends.inFlight
  · rw [sender]
    exact sends.ended

/-- With nothing of a queue in hand, a reply and the call in flight are left. -/
theorem of_isFree (isFree : channel.sender.IsFree)
    (reply : ∀ frame, channel.sender = .sendingReply frame →
      ∃ reply : Reply, frame = reply.frameWithin limit)
    (inFlight : ∀ call, channel.inFlight = some call → limit < call.invocation.encode.length →
      ∃ message, call.reply = some (.failure call.id .other message)) :
    channel.SendsWithin limit where
  call frame sending := by
    rw [sending] at isFree
    exact isFree.elim
  reply
  inFlight
  ended call reply ended := by
    rw [ended] at isFree
    exact isFree.elim

theorem start (limit : Nat) (contact : Contact) (side : Side) :
    (Channel.start contact side).SendsWithin limit :=
  of_isFree trivial (fun _ sending => by cases sending) (fun _ flying => by cases flying)

theorem stop (sends : channel.SendsWithin limit) : channel.stop.SendsWithin limit :=
  sends.of_eq rfl rfl

end Channel.SendsWithin

namespace Station

variable {station before after first last : Station} {told : List Report} {limit : Nat}

theorem replyFrame_eq (station : Station) (reply : Reply) :
    station.replyFrame reply = reply.frameWithin station.link.maxFrameLength := rfl

theorem Answered.sendsWithin {invocation : Invocation}
    (answered : station.Answered invocation after told)
    (sends : station.channel.SendsWithin limit) : after.channel.SendsWithin limit := by
  cases answered <;> exact sends.of_eq rfl rfl

/-- A call that is too long has failed when it is in flight, so its reply is that failure. -/
theorem replyInFlight_of_long {reply : Reply} (sends : station.channel.SendsWithin limit)
    (call : Call) (flying : station.channel.inFlight = some call)
    (found : station.replyInFlight call = some reply)
    (long : limit < call.invocation.encode.length) :
    ∃ message, reply = .failure call.id .other message := by
  obtain ⟨message, carried⟩ := sends.inFlight call flying long
  rw [replyInFlight, carried] at found
  exact ⟨message, (Option.some.inj found).symm⟩

/-- Every change sends what fits, or a failure instead. -/
theorem Change.sendsWithin (change : Change before after told)
    (isLimit : before.link.maxFrameLength = limit) (sends : before.channel.SendsWithin limit) :
    after.channel.SendsWithin limit := by
  cases change with
  | hear | hand _ _ | endReceiving | foundClosed _ | misread _ | ignore _ _ | close _ _ _ =>
      exact sends.of_eq rfl rfl
  | handFails _ _ | endSending _ | goOn _ | wait _ | peek _ _ | dequeue _ _ | dequeueFails _ _ =>
      exact .of_isFree trivial (fun _ sending => by cases sending) sends.inFlight
  | @takeReply reply _ _ _ =>
      refine .of_isFree trivial (fun frame sending => ?_) sends.inFlight
      cases sending
      exact ⟨reply, by rw [replyFrame_eq, isLimit]⟩
  | retry _ _ _ _ _ =>
      exact ⟨sends.call, sends.reply, fun _ flying => (by cases flying), sends.ended⟩
  | @finish former _ _ flying found _ =>
      refine ⟨fun _ sending => (by cases sending), fun _ sending => (by cases sending),
        fun _ flying => (by cases flying), ?_⟩
      intro call reply ended long
      cases ended
      obtain ⟨message, same⟩ := replyInFlight_of_long sends former flying found long
      exact ⟨message, same⟩
  | takeHead _ _ fits =>
      rw [isLimit] at fits
      refine ⟨?_, fun _ sending => (by cases sending), ?_, fun _ _ ended => (by cases ended)⟩
      · intro frame sending
        cases sending
        exact fits
      · intro call flying long
        cases flying
        exact absurd fits (Nat.not_le.mpr long)
  | @refuseHead _ _ message _ _ _ =>
      refine ⟨sends.call, sends.reply, ?_, sends.ended⟩
      intro call flying _
      cases flying
      exact ⟨message, rfl⟩
  | invoked _ _ _ answered => exact answered.sendsWithin sends
  | attach _ _ _ flying unanswered =>
      refine ⟨sends.call, sends.reply, ?_, sends.ended⟩
      intro call flies long
      cases flies
      obtain ⟨message, carried⟩ := sends.inFlight _ flying long
      cases unanswered.symm.trans carried

/-- A call that is too long ends with the failure that it got. -/
theorem Change.told_of_long (change : Change before after told)
    (sends : before.channel.SendsWithin limit) {call : Call} {reply : Reply}
    (ended : .ended call reply ∈ told) (long : limit < call.invocation.encode.length) :
    ∃ message, reply = .failure call.id .other message := by
  cases change with
  | dequeue dequeuing _ =>
      cases List.mem_singleton.mp ended
      exact sends.ended _ _ dequeuing long
  | invoked _ _ _ answered => cases answered <;> simp at ended
  | _ => cases ended

/-- A turn sends what fits, or a failure instead, and a call that is too long ends with a
failure. -/
theorem Turn.sendsWithin (turn : Turn first last told)
    (isLimit : first.link.maxFrameLength = limit) (sends : first.channel.SendsWithin limit) :
    last.channel.SendsWithin limit ∧ ∀ call reply, .ended call reply ∈ told →
      limit < call.invocation.encode.length →
        ∃ message, reply = .failure call.id .other message := by
  induction turn with
  | done => exact ⟨sends, fun _ _ ended => by cases ended⟩
  | step change _ ih =>
      obtain ⟨later, ends⟩ := ih (change.keeps.limit.trans isLimit)
        (change.sendsWithin isLimit sends)
      refine ⟨later, fun call reply ended long => ?_⟩
      rcases List.mem_append.mp ended with now | afterwards
      · exact change.told_of_long sends now long
      · exact ends call reply afterwards long

/-! ## Where a step leads -/

/-- Why the sending activity of a channel ends. -/
inductive EndsFor (station : Station) : Prop where
  | isOver : station.isLinkOpen = false ∨ station.channel.isStopped = true → EndsFor station
  /-- One of the ends of the link is not there any more. -/
  | refused {frame : Bytes} : station.Holds frame → frame.length ≤ station.link.maxFrameLength →
      station.isLinkOpen = false ∨
        (station.link.atSide station.channel.side.other).isListening = false →
      EndsFor station
  | dequeueFails {call : Call} {reply : Reply} {fault : Backlog.Fault} :
      station.channel.sender = .dequeuing call reply →
      (station.outbox.queue.dequeueIfHead station.backlog call.id).1 = .error fault →
      EndsFor station
  /-- Not even the failure fits that is sent instead of a reply. -/
  | failureTooLong {reply : Reply} :
      station.channel.sender = .sendingReply reply.tooLong.encode →
      station.link.maxFrameLength < reply.encode.length →
      station.link.maxFrameLength < 80 + (toString reply.encode.length).utf8ByteSize →
      EndsFor station

/-- Where a step of the sending activity leads. -/
inductive Leads (station next : Station) : Prop where
  /-- The next reply is in hand. -/
  | reply {reply : Reply} : station.channel.outbound = reply :: next.channel.outbound →
      next.channel.sender = .sendingReply (reply.frameWithin station.link.maxFrameLength) →
      Leads station next
  /-- The head of the queue is in hand, as it fits. -/
  | call {head : Call} : station.outbox.queue.peek = some head →
      head.invocation.encode.length ≤ station.link.maxFrameLength →
      next.channel.sender = .sendingCall head.invocation.encode → Leads station next
  | goesOn : next.channel.sender.HasNoFrame → Leads station next
  | ends : station.EndsFor → next.channel.sender = .ended → Leads station next

theorem hasNoFrame_endRound (station : Station) (worked : Bool) :
    (station.endRound worked).channel.sender.HasNoFrame := by
  cases worked <;> trivial

theorem hasNoFrame_sendNext (station : Station) (worked : Bool) :
    (station.sendNext worked).channel.sender.HasNoFrame := by
  simp only [sendNext]
  split
  · exact hasNoFrame_endRound station worked
  · trivial

theorem hasNoFrame_finishCurrent (station : Station) (worked : Bool) :
    (station.finishCurrent worked).channel.sender.HasNoFrame := by
  simp only [finishCurrent]
  split
  · exact hasNoFrame_sendNext station worked
  · split
    · exact hasNoFrame_sendNext station worked
    · split
      · exact hasNoFrame_sendNext _ true
      · trivial

/-- With the same replies and the same limit, the first part of a round leads the same way. -/
theorem leads_sendReplies (changed : Station) (channel : changed.channel = station.channel)
    (limit : changed.link.maxFrameLength = station.link.maxFrameLength) (worked : Bool) :
    station.Leads (changed.sendReplies worked) := by
  simp only [sendReplies]
  split
  next waiting =>
    refine .reply (channel ▸ waiting) ?_
    rw [← limit]
    rfl
  next => exact .goesOn (hasNoFrame_finishCurrent changed worked)

theorem leads_look {changed : Station} (channel : changed.channel = station.channel)
    (link : changed.link = station.link) : station.Leads changed.look := by
  simp only [look, isLinkOpen, channel, link]
  split
  · exact leads_sendReplies changed channel (congrArg _ link) false
  next closed =>
    rw [Bool.and_eq_true, Bool.not_eq_true', Decidable.not_and_iff_not_or_not, Bool.not_eq_true,
      Bool.not_eq_false] at closed
    exact .ends (.isOver closed) rfl

theorem leads_wakeUp (station : Station) : station.Leads station.wakeUp := by
  simp only [wakeUp]
  split <;> exact leads_look rfl rfl

theorem leads_dequeueEnded {call : Call} {reply : Reply}
    (ending : station.channel.sender = .dequeuing call reply) :
    station.Leads (station.dequeueEnded call reply).1 := by
  simp only [dequeueEnded]
  split
  next failed => exact .ends (.dequeueFails ending (congrArg Prod.fst failed)) rfl
  next => exact .goesOn (hasNoFrame_sendNext _ true)

theorem leads_takeHead (station : Station) (worked : Bool) :
    station.Leads (station.takeHead worked) := by
  simp only [takeHead]
  split
  · exact .goesOn (hasNoFrame_endRound station worked)
  next head isHead =>
    split
    · exact .goesOn (hasNoFrame_endRound _ true)
    next fits => exact .call isHead (Nat.le_of_not_lt fits) rfl

/-- A frame that is too long is the failure instead of a reply. -/
theorem endsFor_of_send {frame : Bytes} {fault : Link.Fault} {link : Link}
    (sends : station.channel.SendsWithin station.link.maxFrameLength) (holds : station.Holds frame)
    (failed : station.link.send station.channel.side frame = (.error fault, link)) :
    station.EndsFor := by
  by_cases fits : frame.length ≤ station.link.maxFrameLength
  · exact .refused holds fits (Link.isGone_of_send_error fits failed)
  · rcases holds with holds | holds
    · obtain ⟨reply, rfl⟩ := sends.reply frame holds
      have long := (not_congr Reply.length_frameWithin_le_iff).mp fits
      rw [not_or, Nat.not_le, Nat.not_le] at long
      rw [Reply.frameWithin, if_neg (Nat.not_le.mpr long.1)] at holds
      exact .failureTooLong holds long.1 long.2
    · exact absurd (sends.call frame holds) fits

theorem leads_transmit {frame : Bytes} {drops : Bool} (goOn : Station → Station)
    (sends : station.channel.SendsWithin station.link.maxFrameLength) (holds : station.Holds frame)
    (goesOn : ∀ link, link.maxFrameLength = station.link.maxFrameLength →
      station.Leads (goOn { station with link })) :
    station.Leads (station.transmit frame drops goOn) := by
  simp only [transmit]
  split
  · exact goesOn station.link rfl
  · split
    next sent => exact goesOn _ (Link.takes_of_send sent).limit
    next failed => exact .ends (endsFor_of_send sends holds failed) rfl

/-- With what fits in hand, or a failure, a step leads to a frame that is to be sent, or to
none, and only a failure that is too long is a reason of its own to end. -/
theorem leads_sendStep {drops : Bool} {next : Station × List Report}
    (sends : station.channel.SendsWithin station.link.maxFrameLength)
    (stepped : station.sendStep drops = some next) : station.Leads next.1 := by
  simp only [sendStep] at stepped
  split at stepped
  · cases stepped
    exact leads_look rfl rfl
  next holds =>
    cases stepped
    refine leads_transmit (fun next => next.sendReplies true) sends (Or.inl holds) ?_
    intro link same
    apply leads_sendReplies
    · rfl
    · exact same
  next ending =>
    cases stepped
    exact leads_dequeueEnded ending
  · cases stepped
    exact leads_takeHead station _
  next holds =>
    cases stepped
    exact leads_transmit (fun next => next.endRound true) sends (Or.inr holds)
      fun _ _ => .goesOn (hasNoFrame_endRound _ true)
  · split at stepped
    · cases stepped
      exact leads_wakeUp station
    · cases stepped
  · cases stepped

/-! ## A call that is too long lets others pass -/

/-- Steps of the sending activity while nothing else happens, one for each choice whether a
frame is dropped, with what they report. -/
inductive SendsOn : Station → List Bool → Station → List Report → Prop where
  | done {station : Station} : SendsOn station [] station []
  | step {first second last : Station} {drops : Bool} {choices : List Bool}
      {told rest : List Report} : first.sendStep drops = some (second, told) →
      SendsOn second choices last rest → SendsOn first (drops :: choices) last (told ++ rest)

theorem SendsOn.trans {middle : Station} {choices others : List Bool} {rest : List Report}
    (left : first.SendsOn choices middle told) (right : middle.SendsOn others last rest) :
    first.SendsOn (choices ++ others) last (told ++ rest) := by
  induction left with
  | done => exact right
  | step stepped _ ih =>
      rw [List.append_assoc]
      exact .step stepped (ih right)

/-- The frames that are sent for the replies that are ready. -/
def replyFrames (station : Station) : List Bytes :=
  station.channel.outbound.map (Reply.frameWithin station.link.maxFrameLength)

/-- All replies have come to the peer's end of the link. -/
def unload (station : Station) : Station :=
  let unloaded := station.deliver station.replyFrames
  { unloaded with channel := { unloaded.channel with outbound := [] } }

/-- The head of the queue is in flight, but it has failed. -/
def refuse (station : Station) (head : Call) : Station :=
  { station with channel := { station.channel with
      inFlight := some ((head.start station.now).withReply head.tooLong)
      pausedUntil := none } }.sendAt .looking

/-- All replies are sent, and the head has left the queue and the backlog with its failure. -/
def skip (station : Station) (head : Call) (queue : Queue) (backlog : Option Backlog) : Station :=
  { station.unload with
    channel := { station.unload.channel with inFlight := none, pausedUntil := none }
    outbox := ({ station.outbox with queue }.complete head.tooLong).2
    backlog }.sendAt (.peeking true)

/-- The head of the queue ends in some steps, and the next one comes, with both ends of the
link still there. -/
structure Skips (station : Station) (head : Call) (choices : List Bool) (last : Station) :
    Prop where
  steps : SendsOn station choices last
    [.ended { head.start station.now with reply := none } head.tooLong]
  connected : last.IsConnected
  peeks : last.channel.sender = .peeking true
  idle : last.channel.inFlight = none
  queue : last.outbox.queue.calls = station.outbox.queue.calls.tail
  delivered : last.delivered = station.delivered ++ station.replyFrames

/-- A head that is too long ends as soon as all replies are sent, if it can be taken from the
queue. -/
def SkipsLongHeads (station : Station) : Prop :=
  ∀ {head : Call} {worked : Bool} {taken : Option Call} {choices : List Bool},
    station.channel.sender = .peeking worked → station.outbox.queue.peek = some head →
    station.link.maxFrameLength < head.invocation.encode.length →
    (station.outbox.queue.dequeueIfHead station.backlog head.id).1 = .ok taken →
    choices.length = station.channel.outbound.length + 3 →
    ∃ last, station.Skips head choices last

theorem unload_of_silent (silent : station.channel.outbound = []) : station.unload = station := by
  simp only [unload, replyFrames, silent, List.map_nil, deliver_nil]
  rw [← silent]

/-- A reply is in hand, and some are left. -/
def takeReply (station : Station) (reply : Reply) (others : List Reply) : Station :=
  { station with channel := { station.channel with outbound := others } }.sendAt
    (.sendingReply (station.replyFrame reply))

section Waiting

variable {reply : Reply} {others : List Reply}
  (waiting : station.channel.outbound = reply :: others)
include waiting

theorem sendReplies_of_waiting (worked : Bool) :
    station.sendReplies worked = station.takeReply reply others := by
  rw [sendReplies, waiting]
  rfl

theorem replyFrames_of_waiting : station.replyFrames = station.replyFrame reply ::
    ((station.takeReply reply others).deliver [station.replyFrame reply]).replyFrames := by
  rw [replyFrames, replyFrames, maxFrameLength_deliver, waiting]
  rfl

/-- It makes no difference whether a reply has been sent before. -/
theorem unload_of_waiting :
    ((station.takeReply reply others).deliver [station.replyFrame reply]).unload =
      station.unload.sendAt (.sendingReply (station.replyFrame reply)) := by
  have delivered : station.deliver station.replyFrames =
      (station.deliver [station.replyFrame reply]).deliver
        ((station.takeReply reply others).deliver [station.replyFrame reply]).replyFrames := by
    rw [deliver_deliver, List.singleton_append, ← replyFrames_of_waiting waiting]
  simp only [unload, delivered]
  rfl

end Waiting

/-- The rest of a round does not depend on the stage before. -/
theorem finishCurrent_sendAt (station : Station) (stage : SendStage) (worked : Bool) :
    (station.sendAt stage).finishCurrent worked = station.finishCurrent worked := rfl

/-- A call that has ended leaves the queue, and the next one comes. -/
theorem sendStep_dequeuing {call : Call} {reply : Reply} {drops : Bool} {queue : Queue}
    {backlog : Option Backlog} {taken : Option Call}
    (ending : station.channel.sender = .dequeuing call reply)
    (dequeued : station.outbox.queue.dequeueIfHead station.backlog call.id =
      (.ok taken, queue, backlog))
    (idle : station.channel.inFlight = none) (unpaused : station.channel.pausedUntil = none) :
    station.sendStep drops = some
      ({ station with
          outbox := ({ station.outbox with queue }.complete reply).2
          backlog }.sendAt (.peeking true), [.ended call reply]) := by
  simp only [sendStep, ending, dequeueEnded, dequeued, sendNext, isPaused, idle, unpaused]
  rfl

section Connected

variable (connected : station.IsConnected)
include connected

theorem IsConnected.unload : station.unload.IsConnected where
  running := connected.running
  isOpen := (connected.deliver _).isOpen
  isHeard := (connected.deliver _).isHeard

/-- One step after the other sends all replies, if each of them fits or the failure does. -/
theorem IsConnected.unloads
    (fits : ∀ frame ∈ station.replyFrames, frame.length ≤ station.link.maxFrameLength)
    {choices : List Bool} (enough : choices.length = station.channel.outbound.length)
    (worked : Bool) :
    ∃ did, SendsOn (station.sendReplies worked) choices (station.unload.finishCurrent did) [] := by
  induction choices generalizing station worked with
  | nil =>
      have silent := List.eq_nil_of_length_eq_zero enough.symm
      refine ⟨worked, ?_⟩
      rw [unload_of_silent silent, sendReplies, silent]
      exact .done
  | cons drops choices ih =>
      obtain ⟨reply, others, waiting⟩ := List.exists_cons_of_length_eq_add_one enough.symm
      let frame := station.replyFrame reply
      let sent := (station.takeReply reply others).deliver [frame]
      have frames : station.replyFrames = frame :: sent.replyFrames :=
        replyFrames_of_waiting waiting
      have taken : (station.takeReply reply others).IsConnected :=
        ⟨connected.running, connected.isOpen, connected.isHeard⟩
      have stepped : (station.takeReply reply others).sendStep drops =
          some (sent.sendReplies true, []) := by
        show some (Station.transmit _ frame drops fun next => next.sendReplies true, []) = _
        rw [taken.transmit (fits frame (frames ▸ List.mem_cons_self))]
      have fitting : ∀ other ∈ sent.replyFrames, other.length ≤ sent.link.maxFrameLength := by
        intro other member
        rw [maxFrameLength_deliver]
        exact fits other (frames ▸ List.mem_cons_of_mem frame member)
      obtain ⟨did, unloads⟩ := ih (taken.deliver _) fitting
        (Nat.succ.inj (enough.trans (congrArg List.length waiting))) true
      rw [unload_of_waiting waiting, finishCurrent_sendAt] at unloads
      refine ⟨did, ?_⟩
      rw [sendReplies_of_waiting waiting]
      exact .step stepped unloads

theorem IsConnected.sendsOn_skip {head : Call} {worked : Bool} {queue : Queue}
    {backlog : Option Backlog} {taken : Option Call} {choices : List Bool}
    (fits : ∀ frame ∈ station.replyFrames, frame.length ≤ station.link.maxFrameLength)
    (peeks : station.channel.sender = .peeking worked)
    (isHead : station.outbox.queue.peek = some head)
    (long : station.link.maxFrameLength < head.invocation.encode.length)
    (dequeued : station.outbox.queue.dequeueIfHead station.backlog head.id =
      (.ok taken, queue, backlog))
    (enough : choices.length = station.channel.outbound.length + 3) :
    SendsOn station choices (station.skip head queue backlog)
      [.ended { head.start station.now with reply := none } head.tooLong] := by
  obtain ⟨first, choices, rfl⟩ := List.exists_cons_of_length_eq_add_one enough
  rw [List.length_cons, Nat.add_right_cancel_iff] at enough
  obtain ⟨second, choices, rfl⟩ := List.exists_cons_of_length_eq_add_one enough
  rw [List.length_cons, Nat.add_right_cancel_iff] at enough
  have nonempty : choices ≠ [] := List.ne_nil_of_length_eq_add_one enough
  have few : choices.dropLast.length = (station.refuse head).channel.outbound.length := by
    rw [List.length_dropLast, enough]
    rfl
  have refused : station.sendStep first = some (station.refuse head, []) := by
    simp only [sendStep, peeks, takeHead, isHead]
    exact congrArg (fun next => some (next, [])) (if_pos long)
  have same : (station.refuse head).IsConnected :=
    ⟨connected.running, connected.isOpen, connected.isHeard⟩
  have looks : (station.refuse head).sendStep second =
      some ((station.refuse head).sendReplies false, []) :=
    congrArg (fun next => some (next, [])) same.look
  obtain ⟨did, unloads⟩ := same.unloads fits few false
  -- The failure is final, so the call leaves the queue next.
  have leaves : ((station.refuse head).unload.finishCurrent did).sendStep
      (choices.getLast nonempty) = some (station.skip head queue backlog,
        [.ended { head.start station.now with reply := none } head.tooLong]) :=
    sendStep_dequeuing rfl dequeued rfl rfl
  rw [← List.dropLast_concat_getLast nonempty]
  exact .step refused (.step looks (unloads.trans (.step leaves .done)))

/-- If what is sent for the replies fits, a head that is too long lets others pass. -/
theorem IsConnected.skipsLongHeads
    (fits : ∀ frame ∈ station.replyFrames, frame.length ≤ station.link.maxFrameLength) :
    station.SkipsLongHeads := by
  intro head worked taken choices peeks isHead long left enough
  have result := station.outbox.queue.dequeueIfHead_cases station.backlog head.id
  rcases dequeued : station.outbox.queue.dequeueIfHead station.backlog head.id with
    ⟨_, queue, backlog⟩
  rw [dequeued] at result left
  cases left
  refine ⟨station.skip head queue backlog,
    connected.sendsOn_skip fits peeks isHead long dequeued enough, ?_, rfl, rfl, ?_,
    station.delivered_deliver _⟩
  · exact ⟨connected.running, connected.unload.isOpen, connected.unload.isHeard⟩
  · cases result with
    | taken isCons _ =>
        rw [isCons]
        rfl
    | mismatch different => exact absurd rfl (different head isHead)

end Connected

end Station

end PeerCalls
