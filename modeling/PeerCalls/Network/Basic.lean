import PeerCalls.Call.Ids
import PeerCalls.Channel.Receiving
import PeerCalls.Channel.Sending
import PeerCalls.Endpoint.Backoff
import PeerCalls.Endpoint.Settings
import PeerCalls.Service.Basic

/-!
# Networks of peers

A network is everything that goes on between peers at one point in time: what
they keep (backlogs, outboxes, answers), the links and the channels on them, and
the tasks under way. Things are kept in tables and referred to by their place;
tasks come and go and have numbers. What others can see of it is in the log.
-/

namespace PeerCalls

/-- An outbox with the place of its backlog. -/
structure OutboxPlace where
  outbox : Outbox
  backlog : Option Nat
  deriving Inhabited

/-- A channel with the places of what it works on. -/
structure ChannelPlace where
  channel : Channel
  outbox : Nat
  answers : Nat
  link : Nat
  service : Service

instance : Inhabited ChannelPlace :=
  ⟨⟨default, 0, 0, 0, fun _ _ => default⟩⟩

/-- The progress of an execution. -/
inductive ExecutionStage where
  | ready
  /-- The service is busy until a time. -/
  | busy (wake : Time) (conclusion : Conclusion)
  deriving Repr, DecidableEq, Inhabited

/-- An invocation that a channel has received and that is being executed. -/
structure Execution where
  number : Nat
  channel : Nat
  invocation : Invocation
  stage : ExecutionStage
  deriving Repr, DecidableEq, Inhabited

/-- The progress of an errand. -/
inductive ErrandStage where
  /-- About to enter an outbox. -/
  | entering (outbox : Nat)
  /-- A server looks for the outbox of a client. -/
  | seeking (server : Nat) (client : String)
  | running (outbox : Nat) (run : Run)
  /-- The run is over; the server looks whether it needs the outbox any more. -/
  | tidying (server : Nat) (client : String) (reply : Reply)
  deriving Repr, DecidableEq, Inhabited

/-- A call that somebody issued and waits for. `route` is set for a call of a
server to a client. -/
structure Errand where
  number : Nat
  call : Call
  route : Option (Nat × String)
  stage : ErrandStage
  deriving Repr, DecidableEq, Inhabited

/-- What a server keeps for a client. -/
structure Registration where
  client : String
  outbox : Nat
  answers : Nat
  channel : Option Nat
  hasConnected : Bool
  deriving Repr, DecidableEq, Inhabited

/-- A server: clients are kept in the order of their ids. -/
structure Server where
  settings : ServerSettings
  backlog : Option Nat
  service : Service
  registrations : List Registration
  isShutDown : Bool

instance : Inhabited Server := ⟨⟨default, none, fun _ _ => default, [], false⟩⟩

/-- The progress of a connection to a server. -/
inductive VisitStage where
  /-- Waiting for the greeting until a time. -/
  | greeting (expiry : Time)
  /-- About to get what is kept for the client. -/
  | preparing (client : String)
  /-- About to register the channel. -/
  | registering (client : String) (outbox answers : Nat)
  | serving (client : String) (channel : Nat)
  | over
  deriving Repr, DecidableEq, Inhabited

/-- A connection that a server has accepted. -/
structure Visit where
  number : Nat
  server : Nat
  link : Nat
  address : Address
  stage : VisitStage
  deriving Repr, DecidableEq, Inhabited

/-- The progress of a client. -/
inductive ClientStage where
  | idle
  | connecting
  | serving (channel : Nat)
  /-- About to connect again at a time. -/
  | pausing (wake : Time)
  | ended
  deriving Repr, DecidableEq, Inhabited

/-- A client. `server` is the place of the server at its address, if there is
one. -/
structure Client where
  settings : ClientSettings
  outbox : Nat
  answers : Nat
  service : Service
  server : Option Nat
  backoff : Backoff
  isShutDown : Bool
  stage : ClientStage

instance : Inhabited Client :=
  ⟨⟨default, 0, 0, fun _ _ => default, none, default, false, .idle⟩⟩

/-- What others can see. -/
inductive Event where
  /-- The queue of an outbox has taken the call of an errand. -/
  | accepted (errand outbox : Nat) (call : Call)
  /-- An errand has its reply. -/
  | returned (errand : Nat) (reply : Reply)
  /-- A call has ended and left the queue that a channel serves. -/
  | ended (channel : Nat) (call : Call) (reply : Reply)
  /-- A service begins to execute an invocation. -/
  | executing (channel : Nat) (invocation : Invocation)
  /-- A service has executed an invocation. -/
  | executed (channel : Nat) (invocation : Invocation) (conclusion : Conclusion)
  /-- A watched end of a link gets a frame. -/
  | arrived (link : Nat) (frame : Bytes)
  /-- A watched end of a link finds it closed. -/
  | closed (link : Nat)
  deriving Repr, DecidableEq

/-- All that goes on. -/
structure Network where
  now : Time
  backlogs : Array Backlog
  outboxes : Array OutboxPlace
  answers : Array Answers
  links : Array Link
  channels : Array ChannelPlace
  servers : Array Server
  clients : Array Client
  executions : List Execution
  errands : List Errand
  visits : List Visit
  /-- Ends of links that take every frame as it arrives. -/
  watched : List (Nat × Side)
  /-- The number of the next task. -/
  nextNumber : Nat
  log : Array (Time × Event)
  deriving Inhabited

namespace Network

def empty : Network where
  now := 0
  backlogs := #[]
  outboxes := #[]
  answers := #[]
  links := #[]
  channels := #[]
  servers := #[]
  clients := #[]
  executions := []
  errands := []
  visits := []
  watched := []
  nextNumber := 0
  log := #[]

/-- Write an event into the log. -/
def note (network : Network) (event : Event) : Network :=
  { network with log := network.log.push (network.now, event) }

/-- Give out a number. -/
def number (network : Network) : Nat × Network :=
  (network.nextNumber, { network with nextNumber := network.nextNumber + 1 })

/-- The backlog at a place. -/
def backlogAt (network : Network) (place : Option Nat) : Option Backlog :=
  place.bind fun place => network.backlogs[place]?

/-- Put a backlog at a place. -/
def setBacklog (network : Network) (place : Option Nat) (backlog : Option Backlog) : Network :=
  match place, backlog with
  | some place, some backlog =>
    { network with backlogs := network.backlogs.setIfInBounds place backlog }
  | _, _ => network

/-- Find a place for a backlog, if there is one. -/
def addBacklog (network : Network) (backlog : Option Backlog) : Option Nat × Network :=
  match backlog with
  | some backlog =>
    (some network.backlogs.size, { network with backlogs := network.backlogs.push backlog })
  | none => (none, network)

def addOutbox (network : Network) (outbox : Outbox) (backlog : Option Nat) : Nat × Network :=
  (network.outboxes.size, { network with outboxes := network.outboxes.push ⟨outbox, backlog⟩ })

def addAnswers (network : Network) (capacity : Nat) : Nat × Network :=
  (network.answers.size, { network with answers := network.answers.push (.new capacity) })

def addLink (network : Network) (maxFrameLength : Nat) : Nat × Network :=
  (network.links.size, { network with links := network.links.push (.new maxFrameLength) })

def addChannel (network : Network) (place : ChannelPlace) : Nat × Network :=
  (network.channels.size, { network with channels := network.channels.push place })

/-- Change the channel at a place. -/
def modifyChannel (network : Network) (place : Nat) (change : Channel → Channel) : Network :=
  { network with channels := network.channels.modify place fun entry =>
      { entry with channel := change entry.channel } }

def modifyOutbox (network : Network) (place : Nat) (change : Outbox → Outbox) : Network :=
  { network with outboxes := network.outboxes.modify place fun entry =>
      { entry with outbox := change entry.outbox } }

def modifyLink (network : Network) (place : Nat) (change : Link → Link) : Network :=
  { network with links := network.links.modify place change }

def modifyServer (network : Network) (place : Nat) (change : Server → Server) : Network :=
  { network with servers := network.servers.modify place change }

def modifyClient (network : Network) (place : Nat) (change : Client → Client) : Network :=
  { network with clients := network.clients.modify place change }

/-- Who is at the other end of the channel at a place. -/
def contact? (network : Network) (channel : Nat) : Option Contact :=
  (network.channels[channel]?).map fun place => place.channel.contact

/-- A channel with all that it works on. -/
def station? (network : Network) (channel : Nat) : Option Station := do
  let place ← network.channels[channel]?
  let outbox ← network.outboxes[place.outbox]?
  let answers ← network.answers[place.answers]?
  let link ← network.links[place.link]?
  return ⟨network.now, place.channel, outbox.outbox, answers, link,
    network.backlogAt outbox.backlog⟩

/-- Put a channel back with all that it works on. -/
def setStation (network : Network) (channel : Nat) (station : Station) : Network :=
  match network.channels[channel]? with
  | none => network
  | some place =>
    let backlog := (network.outboxes[place.outbox]?).bind OutboxPlace.backlog
    let network := network.modifyChannel channel fun _ => station.channel
    let network := network.modifyOutbox place.outbox fun _ => station.outbox
    let network := network.modifyLink place.link fun _ => station.link
    let network := { network with
      answers := network.answers.setIfInBounds place.answers station.answers }
    network.setBacklog backlog station.backlog

end Network

end PeerCalls
