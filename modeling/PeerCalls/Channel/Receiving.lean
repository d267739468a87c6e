import PeerCalls.Channel.Basic

/-!
# The receiving activity of a channel

A frame is the peer's call or the reply to a call of this side. A call is
executed unless it was before. A reply belongs to the call in flight or to
nothing; one that cannot be read is a failure of the call that it names. What is
neither, a call that cannot be read, and a reply that names no call end the
channel.
-/

namespace PeerCalls.Station

/-- Why a frame ends a channel. -/
inductive FrameFault where
  | unknownKind (length : Nat)
  | unreadableCall (fault : Frame.Fault)
  | replyWithoutId (length : Nat)
  deriving Repr, DecidableEq

/-- The peer calls. -/
def onInvocation (station : Station) (invocation : Invocation) : Station × List Report :=
  let (disposition, answers) := station.answers.arrive invocation.id
  let station := { station with answers }
  match disposition with
  | .execute => (station, [.execute invocation])
  | .inProgress => (station, [])
  | .cached reply => (station.pushReply reply, [])
  | .obsolete =>
    (station.pushReply (Reply.failure invocation.id .obsoleteCommand ""), [])

/-- A frame with the header of a call. -/
def onMethodFrame (station : Station) (frame : Bytes) :
    Except FrameFault (Station × List Report) :=
  match Invocation.decode frame with
  | .ok invocation => .ok (station.onInvocation invocation)
  | .error fault => .error (.unreadableCall fault)

/-- The reply in a frame that names a call. -/
def replyIn (id : UInt64) (frame : Bytes) : Reply :=
  match Reply.decode frame with
  | .ok reply => reply
  | .error fault => Reply.failure id .rpcError ("malformed result: " ++ fault.message)

/-- A reply belongs to the call in flight with its id, if that has none yet. -/
def attach (station : Station) (id : UInt64) (reply : Reply) : Station :=
  match station.channel.inFlight with
  | some call =>
    if call.id = id ∧ call.reply = none then
      { station with
        channel := { station.channel with inFlight := some (call.withReply reply) }
        outbox := station.outbox.signal }
    else station
  | none => station

/-- A frame with the header of a reply. -/
def onResultFrame (station : Station) (frame : Bytes) : Except FrameFault Station :=
  match peekId frame with
  | some id => .ok (station.attach id (replyIn id frame))
  | none => .error (.replyWithoutId frame.length)

/-- A frame arrives. -/
def onFrame (station : Station) (frame : Bytes) : Except FrameFault (Station × List Report) :=
  match FrameKind.peek frame with
  | some .method => station.onMethodFrame frame
  | some .result => (station.onResultFrame frame).map fun station => (station, [])
  | none => .error (.unknownKind frame.length)

/-- The next step of the receiving activity, if it can take one now. -/
def receiveStep (station : Station) : Option (Station × List Report) :=
  match station.channel.receiver with
  | .ended => none
  | .listening =>
    if !station.isLinkOpen || station.channel.isStopped then some (station.endReceiving, [])
    else
      match station.link.receive station.channel.side with
      | (.pending, _) => none
      | (.closed, link) => some ({ station with link }.endReceiving, [])
      | (.frame frame, link) =>
        let station := { station with link }
        match station.onFrame frame with
        | .ok next => some next
        | .error _ => some (station.endReceiving, [])

/-- Once both activities have ended, the connection is closed. -/
def closeStep (station : Station) : Option Station :=
  match station.channel.sender, station.channel.receiver, station.channel.hasEnded with
  | .ended, .ended, false =>
    some { station with
      channel := { station.channel with hasEnded := true }
      link := station.link.close station.channel.side }
  | _, _, _ => none

/-- An execution has ended: its reply is remembered and sent. -/
def concludeStep (station : Station) (reply : Reply) : Station :=
  { station with answers := station.answers.record reply }.pushReply reply

end PeerCalls.Station
