import PeerCalls.Network.Control

/-!
# Actions on a network

An action is one thing that somebody does to a network from outside, between two
moves; a response is what they are told at once. Together with the moves and with
the passing of time, actions are all that ever happens to a network.
-/

namespace PeerCalls

/-- One thing that is done to a network. -/
inductive Action where
  | issue (outbox : Nat) (call : Call)
  | issueTo (server : Nat) (client : String) (call : Call)
  | enqueue (outbox : Nat) (call : Call)
  | dequeue (outbox : Nat)
  | signal (outbox : Nat)
  | takeSignal (outbox : Nat)
  | complete (outbox : Nat) (reply : Reply)
  | abandon (outbox : Nat) (id : UInt64)
  | refuse (backlog : Nat) (operations : List Backlog.Operation)
  | send (link : Nat) (side : Side) (frame : Bytes)
  | closeLink (link : Nat) (side : Side)
  | stopChannel (channel : Nat)
  | forget (server : Nat) (client : String)
  | startClient (client : Nat)
  | shutDownClient (client : Nat)
  | shutDownServer (server : Nat)
  /-- Nothing is done for a while. -/
  | sleep (span : Span)
  deriving Repr

/-- What the one who acts is told. -/
inductive Response where
  | done
  /-- The number of an errand. -/
  | errand (number : Nat)
  | flag (value : Bool)
  | admission (result : Except Queue.Fault Queue.Admission)
  | taken (result : Except Backlog.Fault (Option Call))
  | sent (result : Except Link.Fault Unit)

namespace Network

/-- Do something. -/
def act (network : Network) : Action → Response × Network
  | .issue outbox call => (network.issue outbox call).map .errand id
  | .issueTo server client call => (network.issueTo server client call).map .errand id
  | .enqueue outbox call => (network.enqueue outbox call).map .admission id
  | .dequeue outbox => (network.dequeue outbox).map .taken id
  | .signal outbox => (.done, network.modifyOutbox outbox Outbox.signal)
  | .takeSignal outbox => (network.takeSignal outbox).map .flag id
  | .complete outbox reply => (network.complete outbox reply).map .flag id
  | .abandon outbox id => (.done, network.modifyOutbox outbox (·.abandon id))
  | .refuse backlog operations => (.done, network.refuse backlog operations)
  | .send link side frame => (network.sendFrame link side frame).map .sent id
  | .closeLink link side => (.done, network.modifyLink link (·.close side))
  | .stopChannel channel => (.done, network.stopChannel channel)
  | .forget server client => (network.forgetClient server client).map .flag id
  | .startClient client => (.done, network.startClient client)
  | .shutDownClient client => (.done, network.shutDownClient client)
  | .shutDownServer server => (.done, network.shutDownServer server)
  | .sleep span => (.done, network.sleep span)

end Network

end PeerCalls
