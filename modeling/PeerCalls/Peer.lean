import PeerCalls.Address

/-!
# Peers

There is one server, and there are clients, told apart by an id that the
application chooses. Peers are ordered with the server first and clients by the
bytes of their ids, which is the order of their code points.
-/

namespace PeerCalls

/-- The remote end of a channel, and the target of a call. -/
inductive Peer where
  | server
  | client (id : String)
  deriving Repr, DecidableEq, Inhabited

namespace Peer

def isServer : Peer → Bool
  | server => true
  | client _ => false

/-- A peer as it is named in messages. -/
def text : Peer → String
  | server => "server"
  | client id => "client:" ++ id

/-- The first peer is not after the second one. -/
def notAfter : Peer → Peer → Bool
  | server, _ => true
  | client _, server => false
  | client left, client right => !decide (right < left)

/-- Insert a peer into a sorted list, unless it is there already. -/
def insertSorted (peer : Peer) : List Peer → List Peer
  | [] => [peer]
  | head :: rest =>
    if peer = head then head :: rest
    else if peer.notAfter head then peer :: head :: rest
    else head :: insertSorted peer rest

/-- The peers of a list in order, each one once. -/
def sorted (peers : List Peer) : List Peer :=
  peers.foldr insertSorted []

end Peer

/-- A peer together with its network address, if it has one. -/
structure Contact where
  peer : Peer
  address : Option Address
  deriving Repr, DecidableEq, Inhabited

/-- A contact as it is named in messages. -/
def Contact.text (contact : Contact) : String :=
  match contact.address with
  | some address => "[" ++ contact.peer.text ++ "@" ++ address.text ++ "]"
  | none => "[" ++ contact.peer.text ++ "]"

end PeerCalls
