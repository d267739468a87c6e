import PeerCalls.Channel.Basic

/-!
# The sending activity of a channel

A round sends all replies, finishes the call in flight if it has ended, and sends
the head of the queue if nothing is in flight. A round that has done nothing
waits: for a signal, for the timeout of the call in flight, for the end of a
pause, or for the idle wait. A call stays in flight until it has a reply or its
time is up. After a failure that is worth another attempt it stays in the queue
and nothing is sent for a while; otherwise it leaves the queue, and whoever waits
for it is told.
-/

namespace PeerCalls.Station

/-- The frame of a reply, or of a failure if the reply is too long. -/
def replyFrame (station : Station) (reply : Reply) : Bytes :=
  let frame := reply.encode
  if frame.length ≤ station.link.maxFrameLength then frame
  else
    (Reply.failure reply.id .remoteException
      ("result of " ++ toString frame.length ++ " bytes exceeds the maximum frame length")).encode

/-- How long a round with nothing to do waits. -/
def idleWait (station : Station) : Span :=
  let deadline := station.channel.inFlight.bind fun call =>
    call.deadline station.settings.defaultTimeout
  let shorten (span : Span) (wake : Option Time) : Span :=
    match wake with
    | some wake => span.shorter (Time.spanTo station.now wake)
    | none => span
  shorten (shorten station.settings.idleWait deadline) station.channel.pausedUntil

/-- The end of a round: another one at once if it has done something. -/
def endRound (station : Station) (worked : Bool) : Station :=
  if worked then station.sendAt .looking
  else station.sendAt (.waiting (Time.wakeAfter station.now station.idleWait))

/-- Nothing of the queue may be sent yet. -/
def isPaused (station : Station) : Bool :=
  station.channel.pausedUntil.any fun wake => decide (station.now < wake)

/-- The last part of a round: the head of the queue, if nothing is in flight. -/
def sendNext (station : Station) (worked : Bool) : Station :=
  if station.channel.inFlight.isSome || station.isPaused then station.endRound worked
  else station.sendAt (.peeking worked)

/-- The reply of the call in flight: the one that has arrived, or a failure if
the time is up. -/
def replyInFlight (station : Station) (call : Call) : Option Reply :=
  match call.reply with
  | some reply => some reply
  | none =>
    let default := station.settings.defaultTimeout
    match call.deadline default with
    | some deadline =>
      if deadline ≤ station.now then
        some (Reply.failure call.id .timeout
          ("no result after " ++ (call.effectiveTimeout default).text))
      else none
    | none => none

/-- The middle part of a round: the call in flight, if it has ended. -/
def finishCurrent (station : Station) (worked : Bool) : Station :=
  match station.channel.inFlight with
  | none => station.sendNext worked
  | some call =>
    match station.replyInFlight call with
    | none => station.sendNext worked
    | some reply =>
      let landed := { station.channel with inFlight := none }
      if reply.isRetryableFailure && call.isRetryable then
        let pause := station.now + station.settings.retryDelay.nanoseconds
        { station with channel := { landed with pausedUntil := some pause } }.sendNext true
      else
        { station with channel := landed }.sendAt
          (.dequeuing { call with reply := none } reply)

/-- The first part of a round: the next reply. -/
def sendReplies (station : Station) (worked : Bool) : Station :=
  match station.channel.outbound with
  | reply :: rest =>
    { station with channel := { station.channel with outbound := rest } }.sendAt
      (.sendingReply (station.replyFrame reply))
  | [] => station.finishCurrent worked

/-- A round begins, unless the channel is over. -/
def look (station : Station) : Station :=
  if station.isLinkOpen && !station.channel.isStopped then station.sendReplies false
  else station.endSending

/-- Hand a frame to the link and go on. A channel that is stopped meanwhile may
drop the frame instead (`drops`). -/
def transmit (station : Station) (frame : Bytes) (drops : Bool) (goOn : Station → Station) :
    Station :=
  if drops && station.channel.isStopped then goOn station
  else
    match station.link.send station.channel.side frame with
    | (.ok (), link) => goOn { station with link }
    | (.error _, link) => { station with link }.endSending

/-- A call that has ended leaves the queue, and whoever waits for it is told. If
it cannot leave the queue, nobody is told and the activity ends. -/
def dequeueEnded (station : Station) (call : Call) (reply : Reply) : Station × List Report :=
  match station.outbox.queue.dequeueIfHead station.backlog call.id with
  | (.error _, queue, backlog) =>
    ({ station with outbox := { station.outbox with queue }, backlog }.endSending, [])
  | (.ok _, queue, backlog) =>
    let outbox := ({ station.outbox with queue }.complete reply).2
    ({ station with outbox, backlog }.sendNext true, [.ended call reply])

/-- The head of the queue is in flight from now on. If it is too long, it has
failed already. -/
def takeHead (station : Station) (worked : Bool) : Station :=
  match station.outbox.queue.peek with
  | none => station.endRound worked
  | some head =>
    let call := head.start station.now
    let frame := call.invocation.encode
    if frame.length > station.link.maxFrameLength then
      let failure := Reply.failure call.id .other
        ("call of " ++ toString frame.length ++ " bytes exceeds the maximum frame length")
      { station with channel :=
          { station.channel with
            inFlight := some (call.withReply failure), pausedUntil := none } }.endRound true
    else
      { station with channel :=
          { station.channel with inFlight := some call, pausedUntil := none } }.sendAt
        (.sendingCall frame)

/-- A channel that waits has a reason to go on. -/
def isAwake (station : Station) (wake : Time) : Bool :=
  station.channel.isStopped || station.outbox.isSignaled || decide (wake ≤ station.now)

/-- The wait is over. A channel that is stopped leaves the signal to others. -/
def wakeUp (station : Station) : Station :=
  if station.channel.isStopped then station.look
  else { station with outbox := { station.outbox with isSignaled := false } }.look

/-- The next step of the sending activity, if it can take one now. -/
def sendStep (station : Station) (drops : Bool) : Option (Station × List Report) :=
  match station.channel.sender with
  | .looking => some (station.look, [])
  | .sendingReply frame => some (station.transmit frame drops fun next => next.sendReplies true, [])
  | .dequeuing call reply => some (station.dequeueEnded call reply)
  | .peeking worked => some (station.takeHead worked, [])
  | .sendingCall frame => some (station.transmit frame drops fun next => next.endRound true, [])
  | .waiting wake => if station.isAwake wake then some (station.wakeUp, []) else none
  | .ended => none

end PeerCalls.Station
