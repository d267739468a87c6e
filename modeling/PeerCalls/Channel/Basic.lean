import PeerCalls.Channel.Answers
import PeerCalls.Channel.Link
import PeerCalls.Channel.Outbox
import PeerCalls.Frame.Invocation
import PeerCalls.Frame.Reply

/-!
# Channels

A channel serves one connection to one peer, with two activities side by side.
One sends: the replies to the peer's calls, and the calls of the outbox, one at a
time. The other receives. A stage is a point at which an activity lets others go
on; between two stages nothing comes in between.
-/

namespace PeerCalls

/-- Where the sending activity is. -/
inductive SendStage where
  /-- At the beginning of a round. -/
  | looking
  /-- A reply is about to be sent. -/
  | sendingReply (frame : Bytes)
  /-- A call has ended and is about to leave the queue. -/
  | dequeuing (call : Call) (reply : Reply)
  /-- About to read the head of the queue. `worked`: the round has done something. -/
  | peeking (worked : Bool)
  /-- A call is about to be sent. -/
  | sendingCall (frame : Bytes)
  /-- Nothing to do until a time, unless there is a signal. -/
  | waiting (wake : Time)
  | ended
  deriving Repr, DecidableEq, Inhabited

/-- Where the receiving activity is. -/
inductive ReceiveStage where
  | listening
  | ended
  deriving Repr, DecidableEq, Inhabited

/-- The state of one connection to one peer. -/
structure Channel where
  contact : Contact
  side : Side
  /-- A copy of the head of the queue, while it is on the wire. -/
  inFlight : Option Call
  /-- Nothing of the queue is sent before this time. -/
  pausedUntil : Option Time
  /-- Replies that are not yet sent. -/
  outbound : List Reply
  isStopped : Bool
  sender : SendStage
  receiver : ReceiveStage
  /-- Both activities are over, and the connection is closed. -/
  hasEnded : Bool
  deriving Repr, DecidableEq, Inhabited

/-- A channel that begins. -/
def Channel.start (contact : Contact) (side : Side) : Channel where
  contact
  side
  inFlight := none
  pausedUntil := none
  outbound := []
  isStopped := false
  sender := .looking
  receiver := .listening
  hasEnded := false

/-- Ask both activities to end. -/
def Channel.stop (channel : Channel) : Channel := { channel with isStopped := true }

/-- A channel with all that it reads and writes. -/
structure Station where
  now : Time
  channel : Channel
  outbox : Outbox
  answers : Answers
  link : Link
  backlog : Option Backlog
  deriving Repr, Inhabited

/-- What a step of a channel tells others. -/
inductive Report where
  /-- A call has ended and left the queue. -/
  | ended (call : Call) (reply : Reply)
  /-- An invocation is to be executed. -/
  | execute (invocation : Invocation)
  deriving Repr, DecidableEq

namespace Station

def settings (station : Station) : Settings := station.outbox.settings

def isLinkOpen (station : Station) : Bool := station.link.isOpen station.channel.side

/-- Put the sending activity at a stage. -/
def sendAt (station : Station) (stage : SendStage) : Station :=
  { station with channel := { station.channel with sender := stage } }

/-- The sending activity ends, and with it the channel. -/
def endSending (station : Station) : Station :=
  { station with channel := { station.channel.stop with sender := .ended } }

/-- The receiving activity ends, and with it the channel. -/
def endReceiving (station : Station) : Station :=
  { station with channel := { station.channel.stop with receiver := .ended } }

/-- A reply to a call of the peer is ready to be sent. -/
def pushReply (station : Station) (reply : Reply) : Station :=
  { station with
    channel := { station.channel with outbound := station.channel.outbound ++ [reply] }
    outbox := station.outbox.signal }

end Station

end PeerCalls
