import PeerCalls.Network.Clock
import PeerCalls.Network.Log

/-!
# What is done to a network from outside

Calls are issued, channels are started and stopped, clients and servers come and
go. These changes happen between moves; what follows from them is left to the
moves.
-/

namespace PeerCalls.Network

/-- Issue a call through an outbox: the number of the errand. -/
def issue (network : Network) (outbox : Nat) (call : Call) : Nat × Network :=
  let (number, network) := network.number
  (number, { network with
    errands := network.errands ++ [⟨number, call, none, .entering outbox⟩] })

/-- Issue a call of a server to a client: the number of the errand. -/
def issueTo (network : Network) (server : Nat) (client : String) (call : Call) :
    Nat × Network :=
  let (number, network) := network.number
  (number, { network with
    errands := network.errands
      ++ [⟨number, call, some (server, client), .seeking server client⟩] })

/-- Put a call into the queue of an outbox without a signal, and without waiting
for it. -/
def enqueue (network : Network) (outbox : Nat) (call : Call) :
    Except Queue.Fault Queue.Admission × Network :=
  match network.outboxes[outbox]? with
  | none => (.ok .overflow, network)
  | some place =>
    let (result, entry, backlog) := place.outbox.enqueue (network.backlogAt place.backlog) call
    (result, (network.modifyOutbox outbox fun _ => entry).setBacklog place.backlog backlog)

/-- Take the call at the head of the queue of an outbox. -/
def dequeue (network : Network) (outbox : Nat) :
    Except Backlog.Fault (Option Call) × Network :=
  match network.outboxes[outbox]? with
  | none => (.ok none, network)
  | some place =>
    let (result, entry, backlog) := place.outbox.dequeue (network.backlogAt place.backlog)
    (result, (network.modifyOutbox outbox fun _ => entry).setBacklog place.backlog backlog)

/-- Give a reply to whoever waits for it in an outbox. -/
def complete (network : Network) (outbox : Nat) (reply : Reply) : Bool × Network :=
  match network.outboxes[outbox]? with
  | none => (false, network)
  | some place =>
    let (isThere, entry) := place.outbox.complete reply
    (isThere, network.modifyOutbox outbox fun _ => entry)

/-- Whether an outbox is signaled, which it no longer is then. -/
def takeSignal (network : Network) (outbox : Nat) : Bool × Network :=
  ((network.outboxes[outbox]?).any (·.outbox.isSignaled),
    network.modifyOutbox outbox fun entry => { entry with isSignaled := false })

/-- Have a backlog refuse exactly some operations. -/
def refuse (network : Network) (backlog : Nat) (operations : List Backlog.Operation) :
    Network :=
  { network with backlogs := network.backlogs.modify backlog fun entry =>
      { entry with refuses := operations } }

/-- Start a channel on one end of a link. -/
def startChannel (network : Network) (contact : Contact) (side : Side)
    (link outbox answers : Nat) (service : Service) : Nat × Network :=
  network.addChannel ⟨Channel.start contact side, outbox, answers, link, service⟩

/-- Make an outbox at the place of a backlog. -/
def createOutbox (network : Network) (target : Peer) (backlog : Option Nat)
    (settings : Settings) : Except Outbox.Fault (Nat × Network) :=
  (Outbox.create target (network.backlogAt backlog) settings).map fun outbox =>
    network.addOutbox outbox backlog

/-- Start a channel with an outbox and answers of its own on one end of a link: the
places of outbox, answers and channel. -/
def openChannel (network : Network) (contact : Contact) (side : Side) (link : Nat)
    (backlog : Option Nat) (settings : Settings) (service : Service) :
    Except Outbox.Fault ((Nat × Nat × Nat) × Network) := do
  let (outbox, network) ← network.createOutbox contact.peer backlog settings
  let (answers, network) := network.addAnswers settings.rememberedReplies
  let (channel, network) := network.startChannel contact side link outbox answers service
  return ((outbox, answers, channel), network)

def stopChannel (network : Network) (channel : Nat) : Network :=
  network.modifyChannel channel Channel.stop

/-- Send a frame from one end of a link. -/
def sendFrame (network : Network) (link : Nat) (side : Side) (frame : Bytes) :
    Except Link.Fault Unit × Network :=
  match network.links[link]? with
  | none => (.error .closed, network)
  | some entry =>
    let (result, entry) := entry.send side frame
    (result, network.modifyLink link fun _ => entry)

/-- Receive a frame at one end of a link. -/
def receiveFrame (network : Network) (link : Nat) (side : Side) : Link.Received × Network :=
  match network.links[link]? with
  | none => (.closed, network)
  | some entry =>
    let (received, entry) := entry.receive side
    (received, network.modifyLink link fun _ => entry)

/-- Take every frame that arrives at an end of a link. -/
def watch (network : Network) (link : Nat) (side : Side) : Network :=
  { network with watched := network.watched ++ [(link, side)] }

/-! ## Servers and clients -/

/-- A server that listens. -/
def addServer (network : Network) (settings : ServerSettings) (backlog : Option Nat)
    (service : Service) : Except Settings.Fault (Nat × Network) :=
  settings.channel.validate.map fun _ =>
    (network.servers.size, { network with
      servers := network.servers.push ⟨settings, backlog, service, [], false⟩ })

/-- A server accepts nobody any more and stops all its channels. -/
def shutDownServer (network : Network) (server : Nat) : Network :=
  let stopped := network.visits.foldl (fun network visit =>
    match visit.stage with
    | .serving _ channel =>
      if visit.server = server then network.stopChannel channel else network
    | _ => network) network
  stopped.modifyServer server fun entry => { entry with isShutDown := true }

/-- Why there is no client. -/
inductive ClientFault where
  | settings (fault : ClientSettings.Fault)
  | outbox (fault : Outbox.Fault)
  deriving Repr, DecidableEq

/-- A client that does nothing yet. -/
def addClient (network : Network) (settings : ClientSettings) (backlog : Option Nat)
    (service : Service) : Except ClientFault (Nat × Network) := do
  (settings.validate).mapError ClientFault.settings
  let (outbox, network) ←
    (network.createOutbox .server backlog settings.channel).mapError ClientFault.outbox
  let (answers, network) := network.addAnswers settings.channel.rememberedReplies
  let backoff := Backoff.new settings.initialDelay settings.maxDelay settings.factor
  return (network.clients.size, { network with
    clients := network.clients.push
      ⟨settings, outbox, answers, service, none, backoff, false, .idle⟩ })

/-- There is a server now at the address of a client. -/
def reachServer (network : Network) (client server : Nat) : Network :=
  network.modifyClient client fun entry => { entry with server := some server }

/-- A client begins to connect. -/
def startClient (network : Network) (client : Nat) : Network :=
  network.modifyClient client fun entry => { entry with stage := .connecting }

/-- A new client that connects to a server, if there is one at its address. -/
def launchClient (network : Network) (settings : ClientSettings) (service : Service)
    (server : Option Nat) : Except ClientFault (Nat × Network) := do
  let (client, network) ← network.addClient settings none service
  let network := match server with
    | some server => network.reachServer client server
    | none => network
  return (client, network.startClient client)

/-- A client stops its channel, and connects no more. -/
def shutDownClient (network : Network) (client : Nat) : Network :=
  let stopped := match network.clients[client]? with
    | some { stage := .serving channel, .. } => network.stopChannel channel
    | _ => network
  stopped.modifyClient client fun entry => { entry with isShutDown := true }

/-- The outbox of a client. -/
def outboxOf (network : Network) (client : Nat) : Nat :=
  ((network.clients[client]?).map Client.outbox).getD 0

/-- A client has a channel. -/
def isClientConnected (network : Network) (client : Nat) : Bool :=
  (network.clients[client]?).any fun entry =>
    match entry.stage with
    | .serving _ => true
    | _ => false

/-- A client has shut down. -/
def hasClientEnded (network : Network) (client : Nat) : Bool :=
  (network.clients[client]?).any (·.stage = .ended)

def registrations (network : Network) (server : Nat) : List Registration :=
  ((network.servers[server]?).map Server.registrations).getD []

/-- The clients that a server keeps something for. -/
def knownClients (network : Network) (server : Nat) : List String :=
  (network.registrations server).map Registration.client

/-- The clients with a channel that is not stopped. -/
def connectedClients (network : Network) (server : Nat) : List String :=
  ((network.registrations server).filter network.isConnected).map Registration.client

/-- A server drops what it keeps for a client that is not connected, and says
whether there was such a client. -/
def forgetClient (network : Network) (server : Nat) (client : String) : Bool × Network :=
  match (network.registrations server).find? (·.client = client) with
  | none => (false, network)
  | some registration =>
    if network.isConnected registration then (false, network)
    else (true, network.dropRegistration server client)

/-! ## The log -/

/-- The reply to an errand, if it is in the log. -/
def replyOf? (network : Network) (errand : Nat) : Option Reply :=
  Log.replyOf? network.log.toList errand

/-- Let time pass until an errand has its reply. -/
def awaitReply (network : Network) (errand : Nat) : Option Reply × Network :=
  let network := network.await fun network => (network.replyOf? errand).isSome
  (network.replyOf? errand, network)

/-- Let time pass until there is something to receive at an end of a link. -/
def awaitFrame (network : Network) (link : Nat) (side : Side) : Link.Received × Network :=
  (network.await fun network => (network.receiveFrame link side).1 != .pending).receiveFrame
    link side

/-- Let time pass until a server knows a client as connected or not. -/
def awaitClient (network : Network) (server : Nat) (client : String) (isConnected : Bool) :
    Network :=
  network.await fun network =>
    (network.connectedClients server).contains client == isConnected

/-- The executions in a log that channels of some kind asked for, in the order of
their ids: id, method and caller. -/
def executionsBy (network : Network) (log : Log) (isIncluded : ChannelPlace → Bool) :
    List (UInt64 × String × String) :=
  let found := log.executions.filterMap fun entry => do
    let (channel, invocation) := entry.content
    let place ← network.channels[channel]?
    if isIncluded place then
      return (entry.id, invocation.name, place.channel.contact.peer.text)
    else none
  found.mergeSort fun first second => decide (first.1 ≤ second.1)

/-- The executions by servers: id, method and caller, in the order of the ids. -/
def executionsByServers (network : Network) (log : Log) : List (UInt64 × String × String) :=
  network.executionsBy log fun place => !place.channel.contact.peer.isServer

/-- The executions by a client: id, method and caller, in the order of the ids. -/
def executionsByClient (network : Network) (log : Log) (client : Nat) :
    List (UInt64 × String × String) :=
  network.executionsBy log fun place =>
    place.channel.contact.peer.isServer && place.outbox == network.outboxOf client

/-- Take everything out of the log. -/
def takeLog (network : Network) : Log × Network :=
  (network.log.toList, { network with log := #[] })

end PeerCalls.Network
